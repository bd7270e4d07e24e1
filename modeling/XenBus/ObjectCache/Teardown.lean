import XenBus.ObjectCache.Audit
import XenBus.ObjectCache.Calls
import XenBus.ObjectCache.Ownership

/-!
# Destroying a cache in a checked build

`CacheDestroy` with the assertions on its way: those of the masks, of `__CacheFlushMagazines`, of
`CacheSpill` and `CacheDestroySlab` with `CacheAudit`, and its own. There is no result if one of them
fails.

When all objects have been put back, the flush empties every slab without moving `Cursor`, which is still
at the first slab that was not full before. `CacheSpill` then destroys the slabs from the last one on, and
`CacheAudit` finds the cursor at the first slab exactly if that slab was not full
(`destroyed_clean_iff`). Whatever the cursor, no slab and no count is left (`Loaded.destroy`).
-/

namespace XenBus.ObjectCache

open MachineInt Transition

variable {n : ℕ} {σ : Type*} {client : Client σ} {s : State n σ} {c : σ} {cache cache' : Cache n}
  {l pre : List Slab} {slab : Slab} {m : Mask} {cpu : Fin n}

/-! ## The assertions -/

/-- Those of `__CacheMaskClear`. -/
def clearAsserts (mask : Mask) (Bit : ℕ) : Bool :=
  decide (Bit < mask.Size ∧ mask.Count ≠ 0 ∧ Bit ∈ mask.Bits)

/-- `CachePutObjectToSlab` in `__CacheFlushMagazines`, after the test of the magic number. -/
def putBackChecked (cache : Cache n) (Object : ℕ) : Option (Cache n) :=
  (KeyedList.lookup Slab.Address cache.SlabList (pageAlign Object)).bind fun slab =>
    if clearAsserts slab.Allocated (ulongSub (Object - slab.Address) bufferOffset / cache.Size) then
      putBack cache Object
    else none

/-- The inner loop of `__CacheFlushMagazines`, for `fuel` objects. -/
def flushMagazineChecked (cpu : Fin n) : ℕ → Cache n → Option (Cache n)
  | 0, cache => some cache
  | fuel + 1, cache =>
    match cacheGetObjectFromMagazine (cache.Magazine cpu) with
    | (none, _) => some cache
    | (some Object, magazine) =>
      (putBackChecked (cache.withMagazine cpu magazine) Object).bind (flushMagazineChecked cpu fuel)

/-- The outer loop of `__CacheFlushMagazines`. -/
def flushMagazinesChecked : List (Fin n) → Cache n → Option (Cache n)
  | [], cache => some cache
  | cpu :: cpus, cache =>
    (flushMagazineChecked cpu (cache.Magazine cpu).length cache).bind (flushMagazinesChecked cpus)

/-- The loop of `CacheDestroySlab`, from `Index` down. -/
def destroyObjectsChecked (client : Client σ) (Size : ℕ) (slab : Slab) :
    ℕ → Mask → σ → Option (Mask × σ)
  | 0, Constructed, s => some (Constructed, s)
  | Index + 1, Constructed, s =>
    if Index < Constructed.Size then
      if cacheMaskTest Constructed Index then
        if clearAsserts Constructed Index then
          destroyObjectsChecked client Size slab Index (cacheMaskClear Constructed Index)
            (client.Dtor (slab.object Size Index) s)
        else none
      else destroyObjectsChecked client Size slab Index Constructed s
    else none

/-- `CacheDestroySlab`: `CacheAudit` runs when the slab is off the list, and `CacheMaskDestroy` expects
both masks to be empty. -/
def cacheDestroySlabChecked (client : Client σ) (cache : Cache n) (slab : Slab) (s : σ) :
    Option (Cache n × σ) :=
  let (cache', s') := cacheDestroySlab client cache slab s
  if slab.Allocated.Size ≤ cache.Count ∧ cacheAudit cache' ∧ cache.CurrentSlabs ≠ 0 ∧
      slab.Allocated.Count = 0 then
    match destroyObjectsChecked client cache.Size slab slab.Constructed.Size slab.Constructed s with
    | some (Constructed, _) => if Constructed.Count = 0 then some (cache', s') else none
    | none => none
  else none

/-- The loop of `CacheSpill`, for `fuel` slabs. -/
def spillLoopChecked (client : Client σ) (Count : ℕ) : ℕ → Cache n → σ → Option (Cache n × σ)
  | 0, cache, s => some (cache, s)
  | fuel + 1, cache, s =>
    match cache.SlabList.getLast? with
    | none => some (cache, s)
    | some slab =>
      if slab.Allocated.Count ≠ 0 then some (cache, s)
      else if cache.Count < slab.Allocated.Size then none
      else if ulongSub cache.Count slab.Allocated.Size < Count then some (cache, s)
      else
        (cacheDestroySlabChecked client cache slab s).bind fun r =>
          spillLoopChecked client Count fuel r.1 r.2

/-- `CacheSpill`. -/
def cacheSpillChecked (client : Client σ) (Count : ℕ) (cache : Cache n) (s : σ) :
    Option (Cache n × σ) :=
  if cache.Count ≤ Count then some (cache, s)
  else
    (spillLoopChecked client Count cache.SlabList.length cache s).bind fun r =>
      if cacheAudit r.1 then some r else none

/-- The cache with the fields that `CacheDestroy` clears. -/
def Cache.cleared (cache : Cache n) : Cache n :=
  { cache with
    Size := 0
    Reservation := 0
    Cap := 0
    Cursor := none
    MaximumSlabs := 0
    MaximumObjects := 0 }

/-- `IsZeroMemory(Cache, sizeof (XENBUS_CACHE))`; the magazines have been freed. -/
def Cache.IsZero (cache : Cache n) : Prop :=
  (cache.Size = 0 ∧ cache.Reservation = 0 ∧ cache.Cap = 0 ∧ cache.SlabList = [] ∧ cache.Cursor = none) ∧
    cache.Count = 0 ∧ cache.CurrentSlabs = 0 ∧ cache.MaximumSlabs = 0 ∧ cache.CurrentObjects = 0 ∧
    cache.MaximumObjects = 0

instance (cache : Cache n) : Decidable cache.IsZero := inferInstanceAs (Decidable (_ ∧ _))

/-- `IsZeroMemory(Cache->Magazine, ..)`. -/
def Cache.MagazinesEmpty (cache : Cache n) : Prop := ∀ cpu, ∀ slot ∈ cache.Magazine cpu, slot = none

instance (cache : Cache n) : Decidable cache.MagazinesEmpty :=
  inferInstanceAs (Decidable (∀ cpu, ∀ slot ∈ cache.Magazine cpu, slot = none))

/-- `CacheDestroy`, with what is freed at its end. -/
def cacheDestroyChecked (client : Client σ) (cache : Cache n) (c : σ) : Option (Cache n × σ) :=
  (flushMagazinesChecked (List.finRange n) cache).bind fun cache =>
    if cache.MagazinesEmpty then
      (cacheSpillChecked client 0 cache c).bind fun r =>
        if r.1.CurrentObjects = 0 ∧ r.1.CurrentSlabs = 0 ∧ r.1.SlabList = [] ∧ r.1.cleared.IsZero then
          some (r.1.cleared, r.2)
        else none
    else none

/-! ## Emptying the magazines -/

/-- The allocated objects are those in the magazines, each of them once. -/
structure Loaded (cache : Cache n) : Prop where
  slabs : Slabs cache.Size cache.SlabList
  used : ∀ o ∈ cache.allocated, inMagazines cache.Magazine o = 1
  unused : ∀ o ∉ cache.allocated, inMagazines cache.Magazine o = 0

/-- What the flush leaves alone. -/
structure Unmoved (cache cache' : Cache n) : Prop where
  size : cache'.Size = cache.Size
  cap : cache'.Cap = cache.Cap
  addresses : cache'.SlabList.map Slab.Address = cache.SlabList.map Slab.Address
  cursor : cache'.Cursor = cache.Cursor
  count : cache'.Count = cache.Count
  currentSlabs : cache'.CurrentSlabs = cache.CurrentSlabs
  currentObjects : cache'.CurrentObjects = cache.CurrentObjects

theorem Unmoved.refl (cache : Cache n) : Unmoved cache cache := ⟨rfl, rfl, rfl, rfl, rfl, rfl, rfl⟩

theorem Unmoved.trans {cache'' : Cache n} (h : Unmoved cache cache') (h' : Unmoved cache' cache'') :
    Unmoved cache cache'' :=
  ⟨h'.size.trans h.size, h'.cap.trans h.cap, h'.addresses.trans h.addresses, h'.cursor.trans h.cursor,
    h'.count.trans h.count, h'.currentSlabs.trans h.currentSlabs,
    h'.currentObjects.trans h.currentObjects⟩

/-- **An object of a magazine goes back to its slab** without a failed assertion. -/
theorem putBackChecked_spec (h : Slabs cache.Size cache.SlabList) (hsize : SoundSize cache.Size)
    {o : ℕ} (ho : o ∈ cache.allocated) : ∃ cache', putBackChecked cache o = some cache' ∧
      putBack cache o = some cache' ∧ Unmoved cache cache' ∧ Slabs cache'.Size cache'.SlabList ∧
      cache'.allocated = cache.allocated \ {o} ∧ cache'.Magazine = cache.Magazine := by
  obtain ⟨cache', hput, hflushed, hslabs, hall, hmagazine⟩ := putBack_spec h hsize ho
  have hkept : Unmoved cache cache' := by
    simp only [putBack, Option.bind_eq_bind, Option.bind_eq_some_iff] at hput
    obtain ⟨slab, -, slab', -, hput⟩ := hput
    obtain rfl := Option.some.inj hput
    exact ⟨rfl, rfl, hflushed.addresses, rfl, rfl, rfl, rfl⟩
  refine ⟨cache', ?_, hput, hkept, hslabs, hall, hmagazine⟩
  obtain ⟨slab, hslab, i, hi, rfl⟩ := ho
  have hgood := h.good slab hslab
  have hin := hgood.lt_of_mem (hgood.subset hi)
  have hpage := hsize.pageAlign_object (h.aligned slab hslab) hin
  have hassert : clearAsserts slab.Allocated i = true := by
    refine decide_eq_true ⟨?_, ?_, hi⟩
    · rw [hgood.allocatedSize]
      exact hin
    · rw [hgood.allocatedCount]
      exact Finset.card_ne_zero_of_mem hi
  unfold putBackChecked
  rw [hpage, KeyedList.lookup_eq_some h.nodup hslab, Option.bind_some, index_object hsize.pos,
    if_pos hassert, hput]

/-- A magazine that returns no object is empty. -/
theorem eq_none_of_get {magazine magazine' : Magazine}
    (h : cacheGetObjectFromMagazine magazine = (none, magazine')) : ∀ slot ∈ magazine, slot = none := by
  induction magazine generalizing magazine' with
  | nil => exact nofun
  | cons slot slots ih =>
    cases slot with
    | some x => simp [cacheGetObjectFromMagazine] at h
    | none =>
      cases hget : cacheGetObjectFromMagazine slots with
      | mk o slots' =>
        obtain ⟨rfl, -⟩ : o = none ∧ none :: slots' = magazine' := by
          simpa [cacheGetObjectFromMagazine, hget] using h
        intro slot hslot
        rcases List.mem_cons.mp hslot with rfl | hslot
        · rfl
        · exact ih hget slot hslot

/-- The magazine of one CPU is emptied, and the others stay. -/
theorem flushMagazineChecked_spec (cpu : Fin n) (fuel : ℕ) (h : Loaded cache)
    (hsize : SoundSize cache.Size) (hfuel : (cache.Magazine cpu).countP Option.isSome ≤ fuel) :
    ∃ cache', flushMagazineChecked cpu fuel cache = some cache' ∧
      flushMagazine cpu fuel cache = some cache' ∧ Unmoved cache cache' ∧ Loaded cache' ∧
      (∀ slot ∈ cache'.Magazine cpu, slot = none) ∧
      ∀ other ≠ cpu, cache'.Magazine other = cache.Magazine other := by
  induction fuel generalizing cache with
  | zero =>
    refine ⟨cache, rfl, rfl, .refl cache, h, fun slot hslot => ?_, fun _ _ => rfl⟩
    have := List.countP_eq_zero.mp (Nat.le_zero.mp hfuel) slot hslot
    exact Option.not_isSome_iff_eq_none.mp this
  | succ fuel ih =>
    unfold flushMagazineChecked flushMagazine
    cases hget : cacheGetObjectFromMagazine (cache.Magazine cpu) with
    | mk o magazine =>
      cases o with
      | none => exact ⟨cache, rfl, rfl, .refl cache, h, eq_none_of_get hget, fun _ _ => rfl⟩
      | some x =>
        obtain ⟨hcount, hsome⟩ := cacheGetObjectFromMagazine_spec hget
        have hin : ∀ o, inMagazines (Function.update cache.Magazine cpu magazine) o =
            inMagazines cache.Magazine o - (if x = o then 1 else 0) := fun o => by
          rw [inMagazines_update, hcount o]
          split_ifs <;> omega
        have hx : x ∈ cache.allocated := by
          by_contra hout
          have hnonneg := inMagazines_nonneg (M := Function.update cache.Magazine cpu magazine) (o := x)
          rw [hin x, if_pos rfl, h.unused x hout] at hnonneg
          omega
        obtain ⟨cache₁, hput, hput', hkept, hslabs, hall, hmagazine⟩ :=
          putBackChecked_spec (show Slabs (cache.withMagazine cpu magazine).Size
            (cache.withMagazine cpu magazine).SlabList from h.slabs) hsize hx
        have hloaded : Loaded cache₁ := by
          refine ⟨hslabs, fun o ho => ?_, fun o ho => ?_⟩
          · rw [hall] at ho
            rw [hmagazine]
            refine (hin o).trans ?_
            rw [h.used o ho.1, if_neg fun heq => ho.2 heq.symm]
            rfl
          · rw [hmagazine]
            refine (hin o).trans ?_
            by_cases heq : x = o
            · subst heq
              rw [h.used x hx, if_pos rfl]
              rfl
            · rw [if_neg heq, h.unused o fun hmem => ho (hall ▸ ⟨hmem, fun hox => heq hox.symm⟩)]
              rfl
        have hself : cache₁.Magazine cpu = magazine := by
          rw [hmagazine]
          exact Function.update_self ..
        obtain ⟨cache', hflush, hflush', hkept', hloaded', hnone, hother⟩ :=
          ih hloaded (hkept.size ▸ hsize) (by rw [hself]; omega)
        have hkept₀ : Unmoved cache (cache.withMagazine cpu magazine) := ⟨rfl, rfl, rfl, rfl, rfl, rfl, rfl⟩
        refine ⟨cache', ?_, ?_, hkept₀.trans (hkept.trans hkept'), hloaded', hnone, fun other hne => ?_⟩
        · exact (congrArg (Option.bind · _) hput).trans hflush
        · exact (congrArg (Option.bind · _) hput').trans hflush'
        · rw [hother other hne, hmagazine]
          exact Function.update_of_ne hne ..

theorem flushMagazinesChecked_spec (cpus : List (Fin n)) (h : Loaded cache)
    (hsize : SoundSize cache.Size) : ∃ cache', flushMagazinesChecked cpus cache = some cache' ∧
      flushMagazines cpus cache = some cache' ∧ Unmoved cache cache' ∧ Loaded cache' ∧
      (∀ cpu ∈ cpus, ∀ slot ∈ cache'.Magazine cpu, slot = none) ∧
      ∀ cpu ∉ cpus, cache'.Magazine cpu = cache.Magazine cpu := by
  induction cpus generalizing cache with
  | nil => exact ⟨cache, rfl, rfl, .refl cache, h, nofun, fun _ _ => rfl⟩
  | cons cpu cpus ih =>
    obtain ⟨cache₁, hflush, hflush', hkept, hloaded, hnone, hother⟩ :=
      flushMagazineChecked_spec cpu (cache.Magazine cpu).length h hsize List.countP_le_length
    obtain ⟨cache', hrest, hrest', hkept', hloaded', hnone', hother'⟩ := ih hloaded (hkept.size ▸ hsize)
    refine ⟨cache', ?_, ?_, hkept.trans hkept', hloaded', fun i hi => ?_, fun i hi => ?_⟩
    · rw [flushMagazinesChecked, hflush, Option.bind_some, hrest]
    · rw [flushMagazines, hflush', Option.bind_some, hrest']
    · by_cases hmem : i ∈ cpus
      · exact hnone' i hmem
      · obtain rfl : i = cpu := (List.mem_cons.mp hi).resolve_right hmem
        rw [hother' i hmem]
        exact hnone
    · obtain ⟨hne, hmem⟩ := not_or.mp (mt List.mem_cons.mpr hi)
      rw [hother' i hmem, hother i hne]

/-! ## Destroying empty slabs -/

/-- The slabs of a cache whose objects are all back, whatever its counts are. -/
structure Emptied (cache : Cache n) : Prop where
  size : SoundSize cache.Size
  slabs : Slabs cache.Size cache.SlabList
  empty : ∀ slab ∈ cache.SlabList, slab.Allocated.Count = 0

/-- The slabs of a cache whose objects are all back. -/
structure Drained (cache : Cache n) : Prop where
  size : SoundSize cache.Size
  slabs : Slabs cache.Size cache.SlabList
  empty : ∀ slab ∈ cache.SlabList, slab.Allocated.Count = 0
  counted : Counted cache

theorem Drained.emptied (h : Drained cache) : Emptied cache := ⟨h.size, h.slabs, h.empty⟩

/-- What `CacheDestroySlab` leaves of the slabs. -/
theorem Emptied.destroySlab (h : Emptied cache) (client : Client σ) (hlist : cache.SlabList = pre ++ [slab])
    (c : σ) : (cacheDestroySlab client cache slab c).1.SlabList = pre ∧
      Emptied (cacheDestroySlab client cache slab c).1 ∧
      OneLess cache (cacheDestroySlab client cache slab c).1 := by
  obtain ⟨hpre, -⟩ := cacheDestroySlab_steps client h.slabs hlist h.size c
  refine ⟨hpre, ⟨h.size, ?_, ?_⟩, cacheDestroySlab_oneLess client h.slabs hlist c hpre⟩
  · rw [hpre]
    exact (hlist ▸ h.slabs).sublist (List.sublist_append_left _ _)
  · intro x hx
    rw [hpre] at hx
    exact h.empty x (hlist ▸ List.mem_append_left _ hx)

/-- One turn of the loop of `CacheSpill`. -/
theorem Emptied.spillLoop_succ (h : Emptied cache) (client : Client σ)
    (hlist : cache.SlabList = pre ++ [slab]) (fuel : ℕ) (c : σ) :
    ObjectCache.spillLoop client 0 (fuel + 1) cache c =
      ObjectCache.spillLoop client 0 fuel (cacheDestroySlab client cache slab c).1
        (cacheDestroySlab client cache slab c).2 := by
  have hlast : cache.SlabList.getLast? = some slab := by simp [hlist]
  have hslab : slab ∈ cache.SlabList := by simp [hlist]
  rw [ObjectCache.spillLoop, hlast]
  simp only [h.empty slab hslab, ne_eq, not_true_eq_false, if_false, Nat.not_lt_zero]

/-- **The loop of `CacheSpill` over empty slabs** leaves none, and preserves what destroying one of them
does. -/
theorem Emptied.spillLoop {Q : Cache n → SlabAlloc → Prop} {P : Cache n → Prop} (hP : Counts Q P)
    (h : Emptied cache) (client : Client σ) (fuel : ℕ) (hfuel : cache.SlabList.length ≤ fuel)
    (hp : P cache) (c : σ) : (ObjectCache.spillLoop client 0 fuel cache c).1.SlabList = [] ∧
      Emptied (ObjectCache.spillLoop client 0 fuel cache c).1 ∧
      P (ObjectCache.spillLoop client 0 fuel cache c).1 ∧
      (ObjectCache.spillLoop client 0 fuel cache c).1.CurrentObjects = cache.CurrentObjects := by
  induction fuel generalizing cache c with
  | zero =>
    exact ⟨List.eq_nil_of_length_eq_zero (Nat.le_zero.mp hfuel), h, hp, rfl⟩
  | succ fuel ih =>
    obtain hnil | ⟨pre, slab, hlist⟩ := List.eq_nil_or_concat cache.SlabList
    · have heq : ObjectCache.spillLoop client 0 (fuel + 1) cache c = (cache, c) := by
        rw [ObjectCache.spillLoop, hnil]
        rfl
      rw [heq]
      exact ⟨hnil, h, hp, rfl⟩
    · have hlist : cache.SlabList = pre ++ [slab] := by simpa using hlist
      obtain ⟨hpre, hemptied, hless⟩ := h.destroySlab client hlist c
      have hlength := hless.length
      rw [h.spillLoop_succ client hlist fuel c]
      exact ih hemptied (by omega) (hP.destroyed hp hless) _

/-- The destructors have run on all constructed objects, and the mask is empty. -/
theorem destroyObjectsChecked_spec (client : Client σ) (Size : ℕ) (slab : Slab) (Index : ℕ) (m : Mask)
    (c : σ) (hsize : Index ≤ m.Size) (hcount : m.Count = m.Bits.card) (hm : ∀ j ∈ m.Bits, j < Index) :
    ∃ m' c', destroyObjectsChecked client Size slab Index m c = some (m', c') ∧ m'.Count = 0 := by
  induction Index generalizing m c with
  | zero =>
    refine ⟨m, c, rfl, ?_⟩
    rw [hcount, Finset.card_eq_zero, Finset.eq_empty_iff_forall_notMem]
    exact fun j hj => absurd (hm j hj) (Nat.not_lt_zero j)
  | succ Index ih =>
    unfold destroyObjectsChecked
    rw [if_pos (Nat.lt_of_succ_le hsize)]
    by_cases hin : Index ∈ m.Bits
    · have hpos : 0 < m.Bits.card := Finset.card_pos.mpr ⟨Index, hin⟩
      have hassert : clearAsserts m Index = true := decide_eq_true ⟨hsize, by omega, hin⟩
      have htest : cacheMaskTest m Index = true := decide_eq_true hin
      rw [if_pos htest, if_pos hassert]
      refine ih _ _ (Nat.le_of_succ_le hsize) ?_ fun j hj => ?_
      · show ulongSub m.Count 1 = (m.Bits.erase Index).card
        rw [Finset.card_erase_of_mem hin, ulongSub_of_le (by omega), hcount]
      · obtain ⟨hne, hj⟩ := Finset.mem_erase.mp hj
        have := hm j hj
        omega
    · have htest : ¬ cacheMaskTest m Index = true := fun h => hin (of_decide_eq_true h)
      rw [if_neg htest]
      refine ih m c (Nat.le_of_succ_le hsize) hcount fun j hj => ?_
      have hne : j ≠ Index := fun heq => hin (heq ▸ hj)
      have := hm j hj
      omega

/-- `CacheAudit` of empty slabs: the cursor is at the first one. -/
theorem cacheAudit_empty (hgood : ∀ slab ∈ cache.SlabList, slab.Allocated.Count = 0 ∧
    0 < slab.Allocated.Size) : cacheAudit cache = true ↔
      cache.SlabList = [] ∨ cache.Cursor = cache.SlabList.head?.map Slab.Address := by
  have horder : ∀ (l : List Slab) (Count : ℕ), (∀ slab ∈ l, slab.Allocated.Count = 0) →
      auditOrder Count l = true := by
    intro l
    induction l with
    | nil => exact fun _ _ => rfl
    | cons slab l ih =>
      intro Count hl
      rw [auditOrder, hl slab List.mem_cons_self, decide_eq_true (Nat.zero_le Count), Bool.true_and]
      exact ih 0 fun x hx => hl x (List.mem_cons_of_mem _ hx)
  rw [cacheAudit, horder _ _ fun slab hslab => (hgood slab hslab).1, Bool.and_true]
  cases hlist : cache.SlabList with
  | nil => exact iff_of_true rfl (.inl rfl)
  | cons slab l =>
    have hslab := hgood slab (hlist ▸ List.mem_cons_self)
    rw [auditCursor, if_pos (by omega), decide_eq_true_iff, or_iff_right (List.cons_ne_nil _ _)]
    rfl

theorem Drained.destroySlab (h : Drained cache) (client : Client σ) (hlist : cache.SlabList = pre ++ [slab])
    (c : σ) : (cacheDestroySlab client cache slab c).1.SlabList = pre ∧
      Drained (cacheDestroySlab client cache slab c).1 := by
  obtain ⟨hpre, hemptied, hless⟩ := h.emptied.destroySlab client hlist c
  exact ⟨hpre, hemptied.size, hemptied.slabs, hemptied.empty, counts_counted.destroyed h.counted hless⟩

/-- With no count there is no slab. -/
theorem Drained.length_eq_zero (h : Drained cache) (hzero : cache.Count ≤ 0) :
    cache.SlabList.length = 0 := by
  have hcount := h.counted.count
  rw [Nat.le_zero.mp hzero] at hcount
  exact (Nat.mul_eq_zero.mp hcount.symm).resolve_right (Nat.ne_of_gt h.size.1)

/-- `CacheDestroySlab` of the last slab: only `CacheAudit` can fail. -/
theorem Drained.destroySlabChecked (h : Drained cache) (client : Client σ)
    (hlist : cache.SlabList = pre ++ [slab]) (c : σ) :
    cacheDestroySlabChecked client cache slab c =
      if cacheAudit (cacheDestroySlab client cache slab c).1 = true then
        some (cacheDestroySlab client cache slab c) else none := by
  have hslab : slab ∈ cache.SlabList := by simp [hlist]
  have hgood := h.slabs.good slab hslab
  have hlength : cache.SlabList.length = pre.length + 1 := by simp [hlist]
  have hcount : slab.Allocated.Size ≤ cache.Count := by
    rw [hgood.allocatedSize, h.counted.count, hlength, Nat.add_mul, Nat.one_mul]
    exact Nat.le_add_left _ _
  have hslabs : cache.CurrentSlabs ≠ 0 := by
    rw [h.counted.slabs, hlength]
    exact Nat.cast_add_one_ne_zero pre.length
  obtain ⟨m, c', hdestroy, hzero⟩ := destroyObjectsChecked_spec client cache.Size slab
    slab.Constructed.Size slab.Constructed c le_rfl hgood.constructedCount fun j hj => by
      rw [hgood.constructedSize]
      exact hgood.lt_of_mem hj
  unfold cacheDestroySlabChecked
  simp only [hdestroy, hzero, if_true, hcount, hslabs, h.empty slab hslab, ne_eq, not_false_eq_true,
    true_and, and_true]

/-- There is one slab at most, or the cursor is at the first one. -/
def Cache.AtFirst (cache : Cache n) : Prop :=
  cache.SlabList.length ≤ 1 ∨ cache.Cursor = cache.SlabList.head?.map Slab.Address

instance (cache : Cache n) : Decidable cache.AtFirst := inferInstanceAs (Decidable (_ ∨ _))

theorem atFirst_append (hlist : cache.SlabList = pre ++ [slab]) :
    cache.AtFirst ↔ pre = [] ∨ cache.Cursor = pre.head?.map Slab.Address := by
  unfold Cache.AtFirst
  rw [hlist]
  cases pre with
  | nil => exact iff_of_true (.inl le_rfl) (.inl rfl)
  | cons x rest =>
    have hlen : ¬ (x :: rest ++ [slab]).length ≤ 1 := by simp
    rw [or_iff_right hlen, or_iff_right (List.cons_ne_nil _ _)]
    rfl

/-- When the last slab is off the list, `CacheAudit` finds the cursor at the first of the others, if it
was there and there are others. -/
theorem Drained.audit_destroySlab (h : Drained cache) (client : Client σ)
    (hlist : cache.SlabList = pre ++ [slab]) (c : σ) :
    cacheAudit (cacheDestroySlab client cache slab c).1 = true ↔
      pre = [] ∨ cache.Cursor = pre.head?.map Slab.Address := by
  obtain ⟨hpre, hdrained⟩ := h.destroySlab client hlist c
  have hall : ∀ x ∈ (cacheDestroySlab client cache slab c).1.SlabList,
      x.Allocated.Count = 0 ∧ 0 < x.Allocated.Size := fun x hx => by
    refine ⟨hdrained.empty x hx, ?_⟩
    rw [(hdrained.slabs.good x hx).allocatedSize]
    exact hdrained.size.1
  rw [cacheAudit_empty hall, hpre]
  cases hp : pre with
  | nil => exact iff_of_true (.inl rfl) (.inl rfl)
  | cons x rest =>
    rw [or_iff_right (List.cons_ne_nil _ _), or_iff_right (List.cons_ne_nil _ _)]
    have hnodup := hlist ▸ h.slabs.nodup
    have hne : slab.Address ≠ x.Address :=
      ((KeyedList.ne_of_nodup hnodup).1 x (hp ▸ List.mem_cons_self)).symm
    have hnext : KeyedList.next Slab.Address cache.SlabList slab.Address = none := by
      rw [hlist, KeyedList.next_append hnodup]
      rfl
    change (if cache.Cursor = some slab.Address then
      KeyedList.next Slab.Address cache.SlabList slab.Address else cache.Cursor) = _ ↔ _
    rw [hnext]
    split_ifs with hcur
    · rw [hcur]
      exact iff_of_false nofun fun heq => hne (Option.some.inj heq)
    · rfl

/-- If that audit passes, so does the next one. -/
theorem Drained.atFirst_destroySlab (h : Drained cache) (client : Client σ)
    (hlist : cache.SlabList = pre ++ [slab]) (c : σ) (hfirst : cache.AtFirst) :
    (cacheDestroySlab client cache slab c).1.AtFirst := by
  obtain ⟨hpre, hdrained⟩ := h.destroySlab client hlist c
  have haudit := (h.audit_destroySlab client hlist c).mpr ((atFirst_append hlist).mp hfirst)
  rw [cacheAudit_empty fun x hx => ⟨hdrained.empty x hx, by
    rw [(hdrained.slabs.good x hx).allocatedSize]
    exact hdrained.size.1⟩] at haudit
  rcases haudit with hnil | hcur
  · exact .inl (by rw [hnil]; exact Nat.zero_le 1)
  · exact .inr hcur

/-- One turn of the loop of `CacheSpill` with the assertions. -/
theorem Drained.spillLoopChecked_succ (h : Drained cache) (client : Client σ)
    (hlist : cache.SlabList = pre ++ [slab]) (fuel : ℕ) (c : σ) :
    spillLoopChecked client 0 (fuel + 1) cache c =
      if cache.AtFirst then
        spillLoopChecked client 0 fuel (cacheDestroySlab client cache slab c).1
          (cacheDestroySlab client cache slab c).2
      else none := by
  have hlast : cache.SlabList.getLast? = some slab := by simp [hlist]
  have hslab : slab ∈ cache.SlabList := by simp [hlist]
  have hgood := h.slabs.good slab hslab
  have hlength : cache.SlabList.length = pre.length + 1 := by simp [hlist]
  have hcount : ¬ cache.Count < slab.Allocated.Size := by
    rw [hgood.allocatedSize, h.counted.count, hlength, Nat.add_mul, Nat.one_mul]
    exact Nat.not_lt.mpr (Nat.le_add_left _ _)
  rw [spillLoopChecked, hlast]
  simp only [h.empty slab hslab, ne_eq, not_true_eq_false, if_false, hcount, Nat.not_lt_zero,
    h.destroySlabChecked client hlist c]
  by_cases hfirst : cache.AtFirst
  · rw [if_pos hfirst, if_pos ((h.audit_destroySlab client hlist c).mpr
      ((atFirst_append hlist).mp hfirst)), Option.bind_some]
  · rw [if_neg hfirst, if_neg fun haudit => hfirst ((atFirst_append hlist).mpr
      ((h.audit_destroySlab client hlist c).mp haudit)), Option.bind_none]

theorem Drained.spillLoop (h : Drained cache) (client : Client σ) (fuel : ℕ)
    (hfuel : cache.SlabList.length ≤ fuel) (c : σ) :
    (ObjectCache.spillLoop client 0 fuel cache c).1.SlabList = [] ∧
      Drained (ObjectCache.spillLoop client 0 fuel cache c).1 ∧
      (ObjectCache.spillLoop client 0 fuel cache c).1.CurrentObjects = cache.CurrentObjects := by
  obtain ⟨hnil, hemptied, hcounted, hobjects⟩ :=
    h.emptied.spillLoop counts_counted client fuel hfuel h.counted c
  exact ⟨hnil, ⟨hemptied.size, hemptied.slabs, hemptied.empty, hcounted⟩, hobjects⟩

/-- **With the assertions**, it passes exactly if the cursor is at the first slab. -/
theorem Drained.spillLoopChecked (h : Drained cache) (client : Client σ) (fuel : ℕ)
    (hfuel : cache.SlabList.length ≤ fuel) (c : σ) :
    ObjectCache.spillLoopChecked client 0 fuel cache c =
      if cache.AtFirst then some (ObjectCache.spillLoop client 0 fuel cache c) else none := by
  induction fuel generalizing cache c with
  | zero =>
    rw [if_pos (.inl (hfuel.trans (Nat.zero_le 1)))]
    rfl
  | succ fuel ih =>
    obtain hnil | ⟨pre, slab, hlist⟩ := List.eq_nil_or_concat cache.SlabList
    · rw [if_pos (.inl (by rw [hnil]; exact Nat.zero_le 1)), ObjectCache.spillLoopChecked,
        ObjectCache.spillLoop, hnil]
      rfl
    · have hlist : cache.SlabList = pre ++ [slab] := by simpa using hlist
      have hlength : cache.SlabList.length = pre.length + 1 := by simp [hlist]
      obtain ⟨hpre, hdrained⟩ := h.destroySlab client hlist c
      rw [h.emptied.spillLoop_succ client hlist, h.spillLoopChecked_succ client hlist]
      split_ifs with hfirst
      · rw [ih hdrained (by rw [hpre]; omega), if_pos (h.atFirst_destroySlab client hlist c hfirst)]
      · rfl

/-! ## CacheDestroy -/

theorem Unmoved.length (h : Unmoved cache cache') : cache'.SlabList.length = cache.SlabList.length := by
  simpa using congrArg List.length h.addresses

/-- The flush empties every slab and leaves the cursor where it is. -/
theorem Loaded.emptied (h : Loaded cache) (hsize : SoundSize cache.Size) :
    ∃ cache', flushMagazinesChecked (List.finRange n) cache = some cache' ∧
      cacheFlushMagazines cache = some cache' ∧ cache'.MagazinesEmpty ∧ Emptied cache' ∧
      Unmoved cache cache' := by
  obtain ⟨cache', hflush, hflush', hkept, hloaded, hnone, -⟩ :=
    flushMagazinesChecked_spec (List.finRange n) h hsize
  have hempty : cache'.MagazinesEmpty := fun cpu => hnone cpu (List.mem_finRange cpu)
  have hfree : ∀ o, inMagazines cache'.Magazine o = 0 := fun o =>
    Finset.sum_eq_zero fun cpu _ => by
      rw [Nat.cast_eq_zero, List.count_eq_zero]
      exact fun hmem => absurd (hempty cpu _ hmem) nofun
  refine ⟨cache', hflush, hflush', hempty, ⟨hkept.size ▸ hsize, hloaded.slabs, fun slab hslab => ?_⟩, hkept⟩
  have hgood := hloaded.slabs.good slab hslab
  rw [hgood.allocatedCount, Finset.card_eq_zero, Finset.eq_empty_iff_forall_notMem]
  intro i hi
  have := hloaded.used _ ⟨slab, hslab, i, hi, rfl⟩
  rw [hfree] at this
  exact absurd this (by norm_num)

/-- What the flush leaves alone is all that the counts depend on. -/
theorem Unmoved.sameCounts (h : Unmoved cache cache') : SameCounts cache cache' :=
  ⟨h.size, h.cap, h.count, h.currentSlabs, h.length⟩

theorem Loaded.flush (h : Loaded cache) (hsize : SoundSize cache.Size) (hc : Counted cache) :
    ∃ cache', flushMagazinesChecked (List.finRange n) cache = some cache' ∧
      cacheFlushMagazines cache = some cache' ∧ cache'.MagazinesEmpty ∧ Drained cache' ∧
      Unmoved cache cache' := by
  obtain ⟨cache', hflush, hflush', hempty, hemptied, hkept⟩ := h.emptied hsize
  exact ⟨cache', hflush, hflush', hempty, ⟨hemptied.size, hemptied.slabs, hemptied.empty,
    counts_counted.same hc hkept.sameCounts⟩, hkept⟩

/-- **`CacheDestroy` of a cache whose objects are all back** leaves no slab and no count, whatever the
cursor is. -/
theorem Loaded.destroy (h : Loaded cache) (hsize : SoundSize cache.Size) (hc : Counted cache)
    (hobjects : cache.CurrentObjects = 0) (client : Client σ) (c : σ) :
    ∃ r : Cache n × σ, cacheDestroy client cache c = some ([], r.2) ∧ r.1.IsZero ∧
      cacheDestroyChecked client cache c = if cache.AtFirst then some r else none := by
  obtain ⟨cache₁, hflush, hflush', hempty, hdrained, hkept⟩ := h.flush hsize hc
  have hlength := hkept.length
  have hfirst : cache₁.AtFirst ↔ cache.AtFirst := by
    unfold Cache.AtFirst
    rw [hlength, hkept.cursor, ← List.head?_map, hkept.addresses, List.head?_map]
  obtain ⟨hnil, hdrained', hobjects'⟩ := hdrained.spillLoop client cache₁.SlabList.length le_rfl c
  -- a spill to 0 runs the loop unless the cache is empty already
  have hspill : cacheSpill client 0 cache₁ c =
      spillLoop client 0 cache₁.SlabList.length cache₁ c := by
    unfold cacheSpill
    split_ifs with hzero
    · rw [hdrained.length_eq_zero hzero]
      rfl
    · rfl
  have hcheckedSpill : cacheSpillChecked client 0 cache₁ c =
      if cache.AtFirst then some (spillLoop client 0 cache₁.SlabList.length cache₁ c) else none := by
    unfold cacheSpillChecked
    split_ifs with hzero hat hat
    · rw [← hspill, cacheSpill, if_pos hzero]
    · have hlen := hdrained.length_eq_zero hzero
      exact absurd (.inl (by rw [← hlength, hlen]; exact Nat.zero_le 1)) hat
    · rw [hdrained.spillLoopChecked client _ le_rfl, if_pos (hfirst.mpr hat), Option.bind_some, if_pos]
      rw [cacheAudit_empty (by rw [hnil]; exact nofun)]
      exact .inl hnil
    · rw [hdrained.spillLoopChecked client _ le_rfl, if_neg (fun ha => hat (hfirst.mp ha)),
        Option.bind_none]
  generalize spillLoop client 0 cache₁.SlabList.length cache₁ c = r at hnil hdrained' hobjects' hspill hcheckedSpill
  have hobjects₁ : r.1.CurrentObjects = 0 := by rw [hobjects', hkept.currentObjects, hobjects]
  have hslabs₁ : r.1.CurrentSlabs = 0 := by
    rw [hdrained'.counted.slabs, hnil]
    rfl
  have hcount₁ : r.1.Count = 0 := by
    rw [hdrained'.counted.count, hnil]
    exact Nat.zero_mul _
  have hzero : r.1.cleared.IsZero :=
    ⟨⟨rfl, rfl, rfl, hnil, rfl⟩, hcount₁, hslabs₁, rfl, hobjects₁, rfl⟩
  refine ⟨(r.1.cleared, r.2), ?_, hzero, ?_⟩
  · rw [cacheDestroy, hflush', Option.map_some, hspill]
    simp only [hnil]
  · rw [cacheDestroyChecked, hflush, Option.bind_some, if_pos hempty, hcheckedSpill]
    split_ifs
    · rw [Option.bind_some, if_pos ⟨hobjects₁, hslabs₁, hnil, hzero⟩]
    · rfl

/-! ## Runs -/

/-- The pages that the memory manager returns are not in use, and no count overflows. -/
def Exact (s : State n σ) (a : Act n) : Prop :=
  Tallying s a ∧ s.cache.CurrentObjects + 1 < 2147483648

instance (s : State n σ) (a : Act n) : Decidable (Exact s a) := inferInstanceAs (Decidable (_ ∧ _))

/-- What `CacheDestroy` may rely on along a run. -/
theorem destroyable_of_reaches (c : σ) {Size Reservation Cap : ℕ} (hsize : SoundSize (p2RoundUp Size 8))
    (h : Reaches (step client) Exact (init n Size Reservation Cap c) s) :
    Owned s ∧ Counted s.cache ∧ s.cache.CurrentObjects = clientTotal s.held s.pending := by
  refine h.invariant (P := fun s : State n σ => Owned s ∧ Counted s.cache ∧
    s.cache.CurrentObjects = clientTotal s.held s.pending) ⟨owned_init c hsize, ?_, ?_⟩ ?_
  · exact ⟨(Nat.zero_mul _).symm, Nat.zero_le _, rfl, by norm_num [init, newCache]⟩
  · simp [init, newCache, clientTotal, Pending.size]
  · rintro s a t ⟨ho, hc, hcurrent⟩ ⟨hG, hlt⟩ hs
    have hhappens := ho.happens (hG.mono fun _ _ h => h.1) hs
    exact ⟨ho.happened hhappens, hc.step ho hG hhappens, current_step hcurrent hlt hhappens⟩

/-- When no user has an object, the allocated ones are in the magazines. -/
theorem Owned.loaded (h : Owned s) (hheld : s.held = []) (hidle : ∀ cpu, s.pending cpu = .idle) :
    Loaded s.cache := by
  have hclients : ∀ o, clients s.held s.pending o = 0 := fun o => by
    unfold clients
    rw [hheld, Finset.sum_eq_zero fun cpu _ => by rw [hidle cpu]; rfl]
    rfl
  refine ⟨h.ordered.slabs, fun o ho => ?_, fun o ho => ?_⟩
  · have := h.balance.used o ho
    rwa [hclients, zero_add] at this
  · have := h.balance.unused o ho
    rwa [hclients, zero_add] at this

/-- The cursor is at the first slab exactly if no slab is full. -/
theorem Ordered.atFirst_iff (h : Ordered cache) :
    cache.AtFirst ↔ cache.SlabList.length ≤ 1 ∨ ∀ slab ∈ cache.SlabList, slab.full = false := by
  refine or_congr_right ?_
  rw [h.cursor]
  cases hlist : cache.SlabList with
  | nil => exact iff_of_true rfl nofun
  | cons x l =>
    have hslabs := hlist ▸ h.slabs
    have hsorted := hlist ▸ h.sorted
    rw [firstFree_cons]
    cases hfull : x.full with
    | true =>
      rw [if_pos rfl]
      refine iff_of_false (fun hfree => ?_) fun hall => ?_
      · -- the address of the first slab is that of no other
        obtain ⟨pre, y, post, rfl, -, -, hy⟩ := exists_of_firstFree hfree
        exact (List.nodup_cons.mp hslabs.nodup).1 (hy ▸ List.mem_map_of_mem (by simp))
      · exact absurd ((hall x List.mem_cons_self).symm.trans hfull) nofun
    | false =>
      rw [if_neg Bool.false_ne_true]
      refine iff_of_true rfl fun y hy => ?_
      have hx := hslabs.good x List.mem_cons_self
      have hgood := hslabs.good y hy
      rcases List.mem_cons.mp hy with rfl | hy
      · exact hfull
      · have hle := (List.pairwise_cons.mp hsorted).1 y hy
        have hlt := hx.lt_of_not_full hfull
        rw [← Bool.not_eq_true, hgood.full_iff]
        omega

/-- **When `CacheDestroy` passes its own audit**: in every state of a run in which all objects are back,
it comes to its end without a failed assertion, with no slab left and the record all-zero, exactly if
there is one slab at most or none of them is full, that is, has all its objects in magazines. -/
theorem destroyed_clean_iff (c : σ) {Size Reservation Cap : ℕ} (hsize : SoundSize (p2RoundUp Size 8))
    (h : Reaches (step client) Exact (init n Size Reservation Cap c) s) (hheld : s.held = [])
    (hidle : ∀ cpu, s.pending cpu = .idle) :
    (∃ cache c', cacheDestroyChecked client s.cache s.client = some (cache, c') ∧ cache.IsZero ∧
      cacheDestroy client s.cache s.client = some ([], c')) ↔
    s.cache.SlabList.length ≤ 1 ∨ ∀ slab ∈ s.cache.SlabList, slab.full = false := by
  obtain ⟨ho, hc, hcurrent⟩ := destroyable_of_reaches c hsize h
  have hobjects : s.cache.CurrentObjects = 0 := by
    rw [hcurrent, hheld, clientTotal, Finset.sum_eq_zero fun cpu _ => by rw [hidle cpu]; rfl]
    rfl
  obtain ⟨r, hfree, hzero, hchecked⟩ := (ho.loaded hheld hidle).destroy ho.size hc hobjects client s.client
  rw [← ho.ordered.atFirst_iff, hchecked]
  constructor
  · rintro ⟨cache, c', hsome, -⟩
    by_contra hfirst
    rw [if_neg hfirst] at hsome
    cases hsome
  · intro hfirst
    exact ⟨r.1, r.2, if_pos hfirst, hzero, hfree⟩

/-- Four objects of two slabs of three, one after the other, and all of them into the magazine. -/
def fullSlabRun [NeZero n] : List (Act n) :=
  [.get 0, .getLocked 0 (page 4096), .get 0, .getLocked 0 (page 8192), .get 0,
    .getLocked 0 (page 8192), .get 0, .getLocked 0 (page 8192),
    .put 0 4144, .put 0 5168, .put 0 6192, .put 0 8240]

/-- One object of two slabs, put back. -/
def freeSlabRun [NeZero n] : List (Act n) :=
  [.fill 6 [page 4096, page 8192], .get 0, .getLocked 0 (page 12288), .put 0 4144]

theorem destroyed_clean_iff_run : ∃ s : State 1 Unit,
    Reaches (step plainClient) Exact (init 1 1024 0 0 ()) s ∧ s.cache.SlabList.length = 2 ∧
      ∃ cache c', cacheDestroyChecked plainClient s.cache s.client = some (cache, c') ∧ cache.IsZero ∧
        cacheDestroy plainClient s.cache s.client = some ([], c') := by
  obtain ⟨s, hs, hv⟩ := (Option.any_eq_true (fun s : State 1 Unit =>
    s.held == [] && (decide (s.pending 0 = .idle) && (decide (s.cache.SlabList.length = 2) &&
      s.cache.SlabList.all fun slab => !slab.full)))
    (guardedRun (step plainClient) Exact (init 1 1024 0 0 ()) freeSlabRun)).mp (by decide +kernel)
  obtain ⟨hheld, hv⟩ := Bool.and_eq_true_iff.mp hv
  obtain ⟨hidle, hv⟩ := Bool.and_eq_true_iff.mp hv
  obtain ⟨hlength, hfree⟩ := Bool.and_eq_true_iff.mp hv
  have h := reaches_of_guardedRun hs
  refine ⟨s, h, of_decide_eq_true hlength, (destroyed_clean_iff () (by decide +kernel) h
    (eq_of_beq hheld) fun cpu => ?_).mpr (.inr fun slab hslab => ?_)⟩
  · rw [Subsingleton.elim cpu 0]
    exact of_decide_eq_true hidle
  · simpa using List.all_eq_true.mp hfree slab hslab

/-- The first slab is full before the flush: `CacheAudit` fails when the second one is off the list. -/
theorem audit_fails_in_destroy : ∃ s : State 1 Unit,
    Reaches (step plainClient) Exact (init 1 1024 0 0 ()) s ∧ s.held = [] ∧
      (∀ cpu, s.pending cpu = .idle) ∧ cacheDestroyChecked plainClient s.cache s.client = none := by
  obtain ⟨s, hs, hv⟩ := (Option.any_eq_true (fun s : State 1 Unit =>
    s.held == [] && (decide (s.pending 0 = .idle) &&
      (cacheDestroyChecked plainClient s.cache s.client).isNone))
    (guardedRun (step plainClient) Exact (init 1 1024 0 0 ()) fullSlabRun)).mp (by decide +kernel)
  obtain ⟨hheld, hv⟩ := Bool.and_eq_true_iff.mp hv
  obtain ⟨hidle, hnone⟩ := Bool.and_eq_true_iff.mp hv
  refine ⟨s, reaches_of_guardedRun hs, eq_of_beq hheld, fun cpu => ?_, Option.isNone_iff_eq_none.mp hnone⟩
  rw [Subsingleton.elim cpu 0]
  exact of_decide_eq_true hidle

end XenBus.ObjectCache
