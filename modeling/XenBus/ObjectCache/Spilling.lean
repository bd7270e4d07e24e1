import XenBus.ObjectCache.Audit

/-!
# Spilling

`CacheSpill` takes empty slabs from the end of the list, as long as the cache keeps the number of objects it
is asked for (`Spills`), and `CacheMonitor` calls it for a cache with more objects than are reserved. Both
look at `Cache->Count`, which `CacheCreateSlab` adds to as a `ULONG`: as long as that sum does not wrap, they
do what they are meant to in every state of every run (`spills_of_reaches`).
-/

namespace XenBus.ObjectCache

open MachineInt Transition

variable {n : ℕ} {σ : Type*} {client : Client σ} {s : State n σ} {cache cache' cache'' : Cache n}
  {slab : Slab} {pre : List Slab} {target : ℕ}

/-- A pass of `CacheMonitor` over a cache, with the outcomes of the slab allocations. -/
def cacheMonitor (client : Client σ) (allocs : List SlabAlloc) (cache : Cache n) (s : σ) : Cache n × σ :=
  if cache.Count < cache.Reservation then ((cacheFill cache.Reservation allocs cache).2, s)
  else if cache.Count > cache.Reservation then
    cacheSpill client (max cache.Reservation (cache.Count / 2)) cache s
  else (cache, s)

/-- Slabs without an allocated object have been taken from the end of the list, and nothing else has changed
but the cursor and the counts. -/
structure Trims (cache cache' : Cache n) : Prop where
  list : ∃ dropped, cache.SlabList = cache'.SlabList ++ dropped ∧
    (∀ slab ∈ dropped, slab.Allocated.Bits = ∅) ∧
    cache.Count = cache'.Count + (dropped.map fun slab => slab.Allocated.Size).sum
  cursor : cache'.Cursor = firstFree cache'.SlabList
  same : cache' = { cache with
    SlabList := cache'.SlabList
    Cursor := cache'.Cursor
    Count := cache'.Count
    CurrentSlabs := cache'.CurrentSlabs }

/-- None of the empty slabs that are left could be destroyed without going below the target. -/
def Maximal (target : ℕ) (cache : Cache n) : Prop :=
  ∀ slab ∈ cache.SlabList, slab.Allocated.Bits = ∅ → cache.Count < target + slab.Allocated.Size

/-- **What `CacheSpill` does.** -/
structure Spills (target : ℕ) (cache cache' : Cache n) : Prop where
  trims : Trims cache cache'
  unchanged : cache.Count ≤ target → cache' = cache
  target_le : target < cache.Count → target ≤ cache'.Count
  maximal : Maximal target cache'

/-- `Count` is the number of objects for which there is room in the slabs. -/
def Cache.Roomy (cache : Cache n) : Prop := cache.Count = cache.SlabList.length * slabCount cache.Size

/-! ## The loop -/

theorem Trims.refl (h : Ordered cache) : Trims cache cache where
  list := ⟨[], by simp, by simp, by simp⟩
  cursor := h.cursor
  same := rfl

theorem Trims.trans (h : Trims cache cache') (h' : Trims cache' cache'') : Trims cache cache'' where
  list := by
    obtain ⟨dropped, hlist, hempty, hcount⟩ := h.list
    obtain ⟨dropped', hlist', hempty', hcount'⟩ := h'.list
    refine ⟨dropped' ++ dropped, by rw [hlist, hlist', List.append_assoc], fun slab hslab => ?_, ?_⟩
    · exact (List.mem_append.mp hslab).elim (hempty' slab) (hempty slab)
    · rw [List.map_append, List.sum_append, hcount, hcount']
      omega
  cursor := h'.cursor
  same := by
    rw [h'.same, h.same]

theorem Trims.count_le (h : Trims cache cache') : cache'.Count ≤ cache.Count := by
  obtain ⟨dropped, -, -, hcount⟩ := h.list
  omega

theorem Slab.Good.bits_eq_empty_iff {m : ℕ} (h : slab.Good m) :
    slab.Allocated.Bits = ∅ ↔ slab.Allocated.Count = 0 := by
  rw [h.allocatedCount, Finset.card_eq_zero]

/-- The slab that is destroyed has its objects in the count. -/
theorem Cache.Roomy.slabCount_le (h : cache.Roomy) (hlist : cache.SlabList = pre ++ [slab]) :
    slabCount cache.Size ≤ cache.Count := by
  rw [h, hlist, List.length_append, List.length_singleton]
  exact Nat.le_mul_of_pos_left _ (Nat.succ_pos _)

/-- The order of the slabs: if the last one is not empty, none is. -/
theorem Ordered.count_pos (h : Ordered cache) (hlist : cache.SlabList = pre ++ [slab])
    (hempty : slab.Allocated.Count ≠ 0) : ∀ x ∈ cache.SlabList, x.Allocated.Bits ≠ ∅ := by
  intro x hx
  rw [Ne, (h.slabs.good x hx).bits_eq_empty_iff]
  have hsorted := h.sorted
  rw [hlist] at hx hsorted
  rcases List.mem_append.mp hx with hpre | hlast
  · have := (sorted_append_cons.mp hsorted).2.1 x hpre
    omega
  · rwa [List.mem_singleton.mp hlast]

/-- `CacheDestroySlab` of the last slab, which is empty. -/
theorem cacheDestroySlab_trims (client : Client σ) (h : Ordered cache) (hroomy : cache.Roomy)
    (hlist : cache.SlabList = pre ++ [slab]) (hsize : SoundSize cache.Size)
    (hempty : slab.Allocated.Count = 0) (s : σ) :
    ∃ cache' s', cacheDestroySlab client cache slab s = (cache', s') ∧ Ordered cache' ∧ cache'.Roomy ∧
      cache'.Size = cache.Size ∧ cache'.SlabList = pre ∧
      cache'.Count + slabCount cache.Size = cache.Count ∧ Trims cache cache' := by
  obtain ⟨s', hdestroy, hordered, -⟩ := cacheDestroySlab_spec client h hlist hsize hempty s
  have hgood := h.slabs.good slab (by simp [hlist])
  have hle := hroomy.slabCount_le hlist
  have hsub := ulongSub_of_le hle
  refine ⟨_, s', hdestroy, hordered.congr rfl rfl rfl, ?_, rfl, rfl, ?_, ?_⟩
  · show ulongSub cache.Count (slabCount cache.Size) = pre.length * slabCount cache.Size
    rw [hsub, hroomy, hlist, List.length_append, List.length_singleton, Nat.add_mul, Nat.one_mul,
      Nat.add_sub_cancel]
  · show ulongSub cache.Count (slabCount cache.Size) + slabCount cache.Size = cache.Count
    omega
  · refine ⟨⟨[slab], hlist, ?_, ?_⟩, rfl, rfl⟩
    · intro x hx
      rw [List.mem_singleton.mp hx]
      exact hgood.bits_eq_empty_iff.mpr hempty
    · rw [List.map_singleton, List.sum_singleton, hgood.allocatedSize]
      show cache.Count = ulongSub cache.Count (slabCount cache.Size) + slabCount cache.Size
      omega

/-- **The loop of `CacheSpill`**: each turn takes one slab, and the last one stays at the target. -/
theorem spillLoop_trims (client : Client σ) (fuel : ℕ) (h : Ordered cache) (hsize : SoundSize cache.Size)
    (hroomy : cache.Roomy) (hfuel : cache.SlabList.length ≤ fuel) (hle : target ≤ cache.Count) (s : σ) :
    ∃ cache' s', spillLoop client target fuel cache s = (cache', s') ∧ Trims cache cache' ∧
      target ≤ cache'.Count ∧ Maximal target cache' := by
  induction fuel generalizing cache s with
  | zero =>
    have hnil := List.eq_nil_of_length_eq_zero (Nat.le_zero.mp hfuel)
    exact ⟨cache, s, rfl, .refl h, hle, by simp [Maximal, hnil]⟩
  | succ fuel ih =>
    unfold spillLoop
    obtain hnil | ⟨pre, slab, hlist⟩ := List.eq_nil_or_concat cache.SlabList
    · rw [hnil]
      exact ⟨cache, s, rfl, .refl h, hle, by simp [Maximal, hnil]⟩
    · rw [List.concat_eq_append] at hlist
      have hlast : cache.SlabList.getLast? = some slab := by simp [hlist]
      have hgood := h.slabs.good slab (by simp [hlist])
      have hsub := ulongSub_of_le (hroomy.slabCount_le hlist)
      simp only [hlast]
      split_ifs with hempty hcount
      · exact ⟨cache, s, rfl, .refl h, hle, fun x hx hbits => absurd hbits (h.count_pos hlist hempty x hx)⟩
      · refine ⟨cache, s, rfl, .refl h, hle, fun x hx _ => ?_⟩
        rw [hgood.allocatedSize, hsub] at hcount
        rw [(h.slabs.good x hx).allocatedSize]
        omega
      · obtain ⟨cache', s', hdestroy, hordered, hroomy', hsize', hpre, hcount', htrims⟩ :=
          cacheDestroySlab_trims client h hroomy hlist hsize (by simpa using hempty) s
        rw [hgood.allocatedSize, hsub] at hcount
        have hlength : cache'.SlabList.length ≤ fuel := by
          rw [hlist, List.length_append, List.length_singleton] at hfuel
          rw [hpre]
          omega
        obtain ⟨cache'', s'', hloop, htrims', hrest⟩ :=
          ih hordered (hsize' ▸ hsize) hroomy' hlength (by omega) s'
        exact ⟨cache'', s'', by rw [hdestroy, hloop], htrims.trans htrims', hrest⟩

/-- **`CacheSpill`.** -/
theorem cacheSpill_spills (client : Client σ) (target : ℕ) (h : Ordered cache) (hsize : SoundSize cache.Size)
    (hroomy : cache.Roomy) (s : σ) : Spills target cache (cacheSpill client target cache s).1 := by
  unfold cacheSpill
  split_ifs with hle
  · refine ⟨.refl h, fun _ => rfl, fun hlt => absurd hle (Nat.not_le.mpr hlt), fun slab hslab _ => ?_⟩
    have hpos := hsize.1
    rw [(h.slabs.good slab hslab).allocatedSize]
    show cache.Count < target + slabCount cache.Size
    omega
  · obtain ⟨cache', s', hloop, htrims, htarget, hmaximal⟩ :=
      spillLoop_trims client cache.SlabList.length h hsize hroomy le_rfl (Nat.le_of_not_le hle) s
    rw [hloop]
    exact ⟨htrims, fun hle' => absurd hle' hle, fun _ => htarget, hmaximal⟩

/-- **A pass of `CacheMonitor`** over a cache with more objects than are reserved. -/
theorem cacheMonitor_count (client : Client σ) (allocs : List SlabAlloc) (h : Ordered cache)
    (hsize : SoundSize cache.Size) (hroomy : cache.Roomy) (hlt : cache.Reservation < cache.Count) (s : σ) :
    cache.Reservation ≤ (cacheMonitor client allocs cache s).1.Count ∧
      (cacheMonitor client allocs cache s).1.Count ≤ cache.Count := by
  have hspills := cacheSpill_spills client (max cache.Reservation (cache.Count / 2)) h hsize hroomy s
  rw [cacheMonitor, if_neg (Nat.not_lt.mpr hlt.le), if_pos hlt]
  refine ⟨?_, hspills.trims.count_le⟩
  by_cases hmax : max cache.Reservation (cache.Count / 2) < cache.Count
  · exact (le_max_left _ _).trans (hspills.target_le hmax)
  · rw [hspills.unchanged (Nat.le_of_not_lt hmax)]
    exact hlt.le

/-! ## Runs -/

/-- The sum of `CacheCreateSlab` does not wrap when it gets that far. -/
def Cache.Fits (cache : Cache n) (alloc : SlabAlloc) : Prop :=
  Succeeds alloc → (cache.Count + slabCount cache.Size) % 4294967296 ≤ cache.Cap →
    cache.Count + slabCount cache.Size < 4294967296

instance (cache : Cache n) (alloc : SlabAlloc) : Decidable (cache.Fits alloc) :=
  inferInstanceAs (Decidable (_ → _ → _))

/-- The pages that the memory manager returns are not in use, and the sum does not wrap. -/
def Unwrapping : State n σ → Act n → Prop := Creates fun cache alloc => cache.Fresh alloc ∧ cache.Fits alloc

instance (s : State n σ) (a : Act n) : Decidable (Unwrapping s a) :=
  inferInstanceAs (Decidable (Creates _ s a))

/-- Slabs that are created and destroyed keep the count, if the sum does not wrap. -/
theorem counts_roomy : Counts (fun (cache : Cache n) alloc => cache.Fits alloc) Cache.Roomy where
  same h hsame := by rw [Cache.Roomy, hsame.count, hsame.length, hsame.size, h]
  created h hfits hsucceeds hmore := by
    rw [Cache.Roomy, hmore.count, Nat.mod_eq_of_lt (hfits hsucceeds hmore.le), hmore.length, hmore.size,
      h, Nat.add_mul, Nat.one_mul]
  destroyed {cache cache'} h hless := by
    have hcount : cache.Count = cache'.SlabList.length * slabCount cache.Size + slabCount cache.Size := by
      rw [h, hless.length, Nat.add_mul, Nat.one_mul]
    rw [Cache.Roomy, hless.count, hless.size, hcount, ulongSub_of_le (Nat.le_add_left _ _),
      Nat.add_sub_cancel]

/-- **Spilling, in every state of every run** in which the sum does not wrap: it does what it is meant to, and
a pass of the monitor leaves a cache with more objects than are reserved between the two numbers. -/
theorem spills_of_reaches (c : σ) {Size Reservation Cap : ℕ} (hsize : SoundSize (p2RoundUp Size 8))
    (h : Reaches (step client) Unwrapping (init n Size Reservation Cap c) s) :
    (∀ target, Spills target s.cache (cacheSpill client target s.cache s.client).1) ∧
      ∀ allocs, s.cache.Reservation < s.cache.Count →
        s.cache.Reservation ≤ (cacheMonitor client allocs s.cache s.client).1.Count ∧
          (cacheMonitor client allocs s.cache s.client).1.Count ≤ s.cache.Count := by
  obtain ⟨howned, hroomy⟩ : Owned s ∧ s.cache.Roomy := by
    refine h.invariant (P := fun s : State n σ => Owned s ∧ s.cache.Roomy)
      ⟨owned_init c hsize, (Nat.zero_mul _).symm⟩ ?_
    rintro s a t ⟨ho, hroomy⟩ hG hs
    have hhappens := ho.happens (hG.mono fun _ _ h => h.1) hs
    exact ⟨ho.happened hhappens, counts_roomy.step ho hroomy hG hhappens⟩
  exact ⟨fun target => cacheSpill_spills client target howned.ordered howned.size hroomy s.client,
    fun allocs hlt => cacheMonitor_count client allocs howned.ordered howned.size hroomy hlt s.client⟩

/-- Three slabs, in the first of which an object is allocated: the monitor leaves that one. -/
theorem spills_of_reaches_three : ∃ s : State 1 Unit,
    guardedRun (step plainClient) Unwrapping (init 1 1024 2 0 ())
      [.fill 9 [page 4096, page 8192, page 12288], .get 0, .getLocked 0 ⟨none, true, true⟩] = some s ∧
      s.cache.Count = 9 ∧ Spills 2 s.cache (cacheSpill plainClient 2 s.cache s.client).1 := by
  obtain ⟨s, hs, hcount⟩ := (Option.any_eq_true (fun s : State 1 Unit => s.cache.Count == 9)
    (guardedRun (step plainClient) Unwrapping (init 1 1024 2 0 ())
      [.fill 9 [page 4096, page 8192, page 12288], .get 0, .getLocked 0 ⟨none, true, true⟩])).mp
        (by decide +kernel)
  exact ⟨s, hs, eq_of_beq hcount,
    (spills_of_reaches () (by decide +kernel) (reaches_of_guardedRun hs)).1 2⟩

/-! ## The wrap -/

/-- A cache of objects of 8 bytes, 506 of which go into a slab, after `k` slabs have been created. -/
structure Grown (k : ℕ) (s : State 1 Unit) : Prop where
  owned : Owned s
  size : s.cache.Size = 8
  reservation : s.cache.Reservation = 100
  cap : s.cache.Cap = 4294967295
  length : s.cache.SlabList.length = k
  count : s.cache.Count = 506 * k % 4294967296
  empty : ∀ slab ∈ s.cache.SlabList, slab.Allocated.Count = 0
  address_le : ∀ slab ∈ s.cache.SlabList, slab.Address ≤ 4096 * k

/-- `CacheFill` up to one more object than there are, with memory for one slab. -/
theorem cacheFill_one {alloc : SlabAlloc} (h : cacheCreateSlab cache alloc = (.success, cache')) :
    (cacheFill (cache.Count + 1) [alloc] cache).2 = cache' := by
  simp only [cacheFill, if_pos (Nat.lt_succ_self _), h]
  split_ifs
  · exact (cacheCreateSlab_of_fails fun hfails => hfails.2.2.1 rfl).2
  · rfl

theorem Grown.fresh {k : ℕ} {s : State 1 Unit} (h : Grown k s) : s.cache.Fresh (page (4096 * (k + 1))) := by
  intro Address hpage
  obtain rfl : 4096 * (k + 1) = Address := Option.some.inj hpage
  refine ⟨Nat.mul_mod_right _ _, fun hmem => ?_⟩
  obtain ⟨slab, hslab, heq⟩ := List.mem_map.mp hmem
  have := h.address_le slab hslab
  omega

/-- One more slab. -/
theorem Grown.next {k : ℕ} {s : State 1 Unit} (h : Grown k s) : ∃ t,
    Reaches (step plainClient) Managed s t ∧ Grown (k + 1) t := by
  have hsize := h.owned.size
  have hcount : slabCount s.cache.Size = 506 := by
    rw [h.size]
    decide
  obtain ⟨status, cache', hcreate, hcreated⟩ := cacheCreateSlab_spec h.owned.ordered hsize _ h.fresh
  have hstatus : (cacheCreateSlab s.cache (page (4096 * (k + 1)))).1 = .success :=
    congrArg Prod.fst (cacheCreateSlab_of_succeeds (by rw [h.cap]; omega) (by rw [h.size]; decide) rfl)
  rw [hcreate] at hstatus
  obtain rfl : status = .success := hstatus
  have hfill := cacheFill_one hcreate
  have hG : Managed s (.fill (s.cache.Count + 1) [page (4096 * (k + 1))]) :=
    fun _ => ⟨h.fresh, fun _ => trivial⟩
  have hstep : step plainClient s (.fill (s.cache.Count + 1) [page (4096 * (k + 1))]) =
      some { s with cache := cache' } := by
    rw [step, if_neg (by simp [h.owned.noFault])]
    exact congrArg (fun cache => some { s with cache := cache }) hfill
  refine ⟨_, Reaches.single hG hstep, ?_⟩
  have howned := h.owned.happened (h.owned.happens hG hstep)
  cases hcreated with
  | failed hfailed => exact absurd rfl hfailed
  | @created Address pre post halloc hsucceeds hcap hlist hordered =>
    obtain rfl : 4096 * (k + 1) = Address := Option.some.inj halloc
    have hmem : ∀ slab ∈ pre ++ newSlab s.cache.Size (4096 * (k + 1)) :: post,
        slab = newSlab s.cache.Size (4096 * (k + 1)) ∨ slab ∈ s.cache.SlabList := by
      intro slab hslab
      rw [hlist]
      rw [List.mem_append, List.mem_cons] at hslab
      rw [List.mem_append]
      tauto
    refine ⟨howned, h.size, h.reservation, h.cap, ?_, ?_, fun slab hslab => ?_, fun slab hslab => ?_⟩
    · have hlength := h.length
      rw [hlist, List.length_append] at hlength
      show (pre ++ newSlab s.cache.Size (4096 * (k + 1)) :: post).length = k + 1
      rw [List.length_append, List.length_cons]
      omega
    · show (s.cache.Count + slabCount s.cache.Size) % 4294967296 = _
      rw [hcount, h.count]
      omega
    · rcases hmem slab hslab with rfl | hold
      · rfl
      · exact h.empty slab hold
    · rcases hmem slab hslab with rfl | hold
      · exact le_rfl
      · have := h.address_le slab hold
        omega

/-- Any number of slabs. -/
theorem grown (k : ℕ) : ∃ s, Reaches (step plainClient) Managed (init 1 8 100 0 ()) s ∧ Grown k s := by
  induction k with
  | zero =>
    refine ⟨_, .refl _, owned_init () (by decide +kernel), rfl, rfl, rfl, rfl, rfl, ?_, ?_⟩
    · exact fun _ h => absurd h List.not_mem_nil
    · exact fun _ h => absurd h List.not_mem_nil
  | succ k ih =>
    obtain ⟨s, hs, hgrown⟩ := ih
    obtain ⟨t, ht, hnext⟩ := hgrown.next
    exact ⟨t, hs.trans ht, hnext⟩

/-- What `CacheSpill` leaves has its objects in the count. -/
theorem Trims.roomy (h : Trims cache cache') (hordered : Ordered cache) (hroomy : cache.Roomy) :
    cache'.Roomy := by
  obtain ⟨dropped, hlist, -, hcount⟩ := h.list
  have hsizes : (dropped.map fun slab => slab.Allocated.Size).sum =
      dropped.length * slabCount cache.Size := by
    have hall : ∀ slab ∈ dropped, slab.Allocated.Size = slabCount cache.Size := fun slab hslab =>
      (hordered.slabs.good slab (hlist ▸ List.mem_append_right _ hslab)).allocatedSize
    rw [List.map_congr_left hall, List.map_const', List.sum_replicate]
    rfl
  have hsize : cache'.Size = cache.Size := by rw [h.same]
  rw [hroomy, hsizes, hlist, List.length_append, Nat.add_mul] at hcount
  rw [Cache.Roomy, hsize]
  omega

/-- A turn of the loop that takes the last slab, whether the difference wraps or not. -/
theorem spillLoop_turn (client : Client σ) (h : Ordered cache) (hsize : SoundSize cache.Size)
    (hlist : cache.SlabList = pre ++ [slab]) (hempty : slab.Allocated.Count = 0)
    (hle : target ≤ ulongSub cache.Count (slabCount cache.Size)) (fuel : ℕ) (s : σ) :
    ∃ cache' s', spillLoop client target (fuel + 1) cache s = spillLoop client target fuel cache' s' ∧
      Ordered cache' ∧ cache'.Size = cache.Size ∧ cache'.SlabList = pre ∧
      cache'.Count = ulongSub cache.Count (slabCount cache.Size) := by
  obtain ⟨s', hdestroy, hordered, -⟩ := cacheDestroySlab_spec client h hlist hsize hempty s
  have hlast : cache.SlabList.getLast? = some slab := by simp [hlist]
  have hgood := h.slabs.good slab (by simp [hlist])
  refine ⟨(cacheDestroySlab client cache slab s).1, s', ?_, ?_⟩
  · rw [spillLoop, hlast]
    simp only [hdestroy, hgood.allocatedSize, if_neg (not_not.mpr hempty), if_neg (Nat.not_lt.mpr hle)]
  · rw [hdestroy]
    exact ⟨hordered.congr rfl rfl rfl, rfl, rfl, rfl⟩

/-- **The count wraps.** With 8488078 slabs of 506 objects it is 172, more than the 100 that are reserved; the
pass of the monitor destroys a slab, with which the count wraps back, and goes on until a single slab is
left. -/
theorem monitor_wraps : ∃ s, Reaches (step plainClient) Managed (init 1 8 100 0 ()) s ∧
    s.cache.Reservation < s.cache.Count ∧
      s.cache.Count < (cacheMonitor plainClient [] s.cache s.client).1.Count := by
  obtain ⟨s, hs, h⟩ := grown 8488078
  have hcount : s.cache.Count = 172 := h.count
  have hslabs : slabCount s.cache.Size = 506 := by
    rw [h.size]
    decide
  have hsub : ulongSub s.cache.Count (slabCount s.cache.Size) = 4294966962 := by
    rw [hcount, hslabs]
    decide
  obtain hnil | ⟨pre, slab, hlist⟩ := List.eq_nil_or_concat s.cache.SlabList
  · have hlength := h.length
    rw [hnil] at hlength
    cases hlength
  rw [List.concat_eq_append] at hlist
  have hlength : pre.length = 8488077 := by
    have := h.length
    rw [hlist, List.length_append, List.length_singleton] at this
    omega
  -- the first turn wraps back
  obtain ⟨cache, c, hturn, hordered, hsize, hpre, hcache⟩ := spillLoop_turn plainClient h.owned.ordered
    h.owned.size hlist (h.empty slab (by simp [hlist])) (hsub ▸ by omega : 100 ≤ _) pre.length s.client
  have hroomy : cache.Roomy := by
    rw [Cache.Roomy, hcache, hsub, hpre, hlength, hsize, hslabs]
  -- the others are as they should be, and leave at least one slab
  obtain ⟨cache', c', hloop, htrims, htarget, -⟩ := spillLoop_trims plainClient pre.length hordered
    (hsize ▸ h.owned.size) hroomy (by rw [hpre]) (hcache ▸ hsub ▸ by omega : 100 ≤ cache.Count) c
  have hleft := htrims.roomy hordered hroomy
  have hsize' : cache'.Size = s.cache.Size := by rw [htrims.same, hsize]
  rw [Cache.Roomy, hsize', hslabs] at hleft
  have hmonitor : (cacheMonitor plainClient [] s.cache s.client).1 = cache' := by
    rw [cacheMonitor, h.reservation, if_neg (by omega), if_pos (by omega), hcount, cacheSpill,
      if_neg (by rw [hcount]; decide), hlist, List.length_append, List.length_singleton]
    exact (congrArg Prod.fst (hturn.trans hloop))
  refine ⟨s, hs, by rw [h.reservation, hcount]; omega, ?_⟩
  rw [hmonitor, hcount]
  omega

end XenBus.ObjectCache
