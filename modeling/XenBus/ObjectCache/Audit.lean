import XenBus.ObjectCache.System

/-!
# The order of the slabs, and the audit

After each section under the cache lock of every run (`Audited`): the slabs are in the order of their
allocated counts, `Cursor` is at the first that is not full, `Count` and `CurrentSlabs` agree with the
list, the masks count their bits, and `CacheAudit` finds nothing.

This takes a `Size` with which every object of a slab begins on its first page, and sums that do not wrap:
`CacheCreateSlab` compares `Cache->Count + Count`, which is a `ULONG`, with `Cache->Cap`.
-/

namespace XenBus.ObjectCache

open MachineInt Transition

variable {n : ℕ} {σ : Type*} {client : Client σ} {s t : State n σ} {cache cache' : Cache n}
  {alloc : SlabAlloc} {status : Status}

/-! ## What the code checks -/

/-- The first loop of `CacheAudit`. -/
def auditCursor (Cursor : Option ℕ) : List Slab → Bool
  | [] => true
  | slab :: list =>
    if slab.Allocated.Count < slab.Allocated.Size then decide (Cursor = some slab.Address)
    else auditCursor Cursor list

/-- The second loop of `CacheAudit`. -/
def auditOrder : ℕ → List Slab → Bool
  | _, [] => true
  | Count, slab :: list =>
    decide (slab.Allocated.Count ≤ Count) && auditOrder slab.Allocated.Count list

/-- `CacheAudit`: no assertion fails. -/
def cacheAudit (cache : Cache n) : Bool :=
  auditCursor cache.Cursor cache.SlabList && auditOrder 4294967295 cache.SlabList

/-- **The slabs are in order, and the counts agree with them.** -/
structure Audited (s : State n σ) : Prop where
  noFault : s.fault = false
  sorted : Sorted s.cache.SlabList
  cursor : s.cache.Cursor = firstFree s.cache.SlabList
  count : s.cache.Count = (s.cache.SlabList.map fun slab => slab.Allocated.Size).sum
  cap : s.cache.Count ≤ s.cache.Cap
  currentSlabs : s.cache.CurrentSlabs = s.cache.SlabList.length
  maskCount : ∀ slab ∈ s.cache.SlabList, slab.Allocated.Count = slab.Allocated.Bits.card ∧
    slab.Constructed.Count = slab.Constructed.Bits.card
  subset : ∀ slab ∈ s.cache.SlabList, slab.Allocated.Bits ⊆ slab.Constructed.Bits
  contiguous : ∀ slab ∈ s.cache.SlabList,
    slab.Constructed.Bits = Finset.range slab.Constructed.Bits.card
  audit : cacheAudit s.cache = true

/-- The sums of `CacheCreateSlab` do not wrap when it gets that far. -/
def Cache.Exact (cache : Cache n) (alloc : SlabAlloc) : Prop :=
  Succeeds alloc → (cache.Count + slabCount cache.Size) % 4294967296 ≤ cache.Cap →
    cache.Count + slabCount cache.Size < 4294967296 ∧ cache.CurrentSlabs + 1 < 2147483648

instance (cache : Cache n) (alloc : SlabAlloc) : Decidable (cache.Exact alloc) :=
  inferInstanceAs (Decidable (_ → _ → _ ∧ _))

/-- The pages that the memory manager returns are not in use, and the sums do not wrap. -/
def Tallying : State n σ → Act n → Prop := Creates fun cache alloc => cache.Fresh alloc ∧ cache.Exact alloc

instance (s : State n σ) (a : Act n) : Decidable (Tallying s a) :=
  inferInstanceAs (Decidable (Creates _ s a))

theorem FillAll.mono {P Q : Cache n → SlabAlloc → Prop} (hPQ : ∀ cache alloc, P cache alloc → Q cache alloc)
    {Count : ℕ} {allocs : List SlabAlloc} (h : FillAll P Count allocs cache) :
    FillAll Q Count allocs cache := by
  induction allocs generalizing cache with
  | nil => exact trivial
  | cons alloc allocs ih => exact fun hlt => ⟨hPQ _ _ (h hlt).1, fun hok => ih ((h hlt).2 hok)⟩

theorem Creates.mono {P Q : Cache n → SlabAlloc → Prop} (hPQ : ∀ cache alloc, P cache alloc → Q cache alloc)
    {a : Act n} (h : Creates P s a) : Creates Q s a := by
  cases a with
  | getLocked cpu alloc => exact fun hcur => hPQ _ _ (h hcur)
  | fill Count allocs => exact FillAll.mono hPQ h
  | createSlab alloc => exact hPQ _ _ h
  | get => exact trivial
  | put => exact trivial
  | putLocked => exact trivial
  | spill => exact trivial

/-! ## Creating and destroying one slab -/

/-- The caches agree on the counts and on the number of slabs. -/
structure SameCounts (cache cache' : Cache n) : Prop where
  size : cache'.Size = cache.Size
  cap : cache'.Cap = cache.Cap
  count : cache'.Count = cache.Count
  currentSlabs : cache'.CurrentSlabs = cache.CurrentSlabs
  length : cache'.SlabList.length = cache.SlabList.length

/-- The counts after `CacheCreateSlab`. -/
structure OneMore (cache cache' : Cache n) : Prop where
  size : cache'.Size = cache.Size
  cap : cache'.Cap = cache.Cap
  count : cache'.Count = (cache.Count + slabCount cache.Size) % 4294967296
  currentSlabs : cache'.CurrentSlabs = long32 (cache.CurrentSlabs + 1)
  length : cache'.SlabList.length = cache.SlabList.length + 1
  le : (cache.Count + slabCount cache.Size) % 4294967296 ≤ cache.Cap

/-- The counts after `CacheDestroySlab`. -/
structure OneLess (cache cache' : Cache n) : Prop where
  size : cache'.Size = cache.Size
  cap : cache'.Cap = cache.Cap
  count : cache'.Count = ulongSub cache.Count (slabCount cache.Size)
  currentSlabs : cache'.CurrentSlabs = long32 (cache.CurrentSlabs - 1)
  length : cache.SlabList.length = cache'.SlabList.length + 1

/-- What creating and destroying one slab preserves, if slabs are created where `Q` holds only. -/
structure Counts (Q : Cache n → SlabAlloc → Prop) (P : Cache n → Prop) : Prop where
  same : ∀ {cache cache'}, P cache → SameCounts cache cache' → P cache'
  created : ∀ {cache alloc cache'}, P cache → Q cache alloc → Succeeds alloc → OneMore cache cache' →
    P cache'
  destroyed : ∀ {cache cache'}, P cache → OneLess cache cache' → P cache'

theorem Created.oneMore (h : Created cache alloc .success cache') :
    Succeeds alloc ∧ OneMore cache cache' := by
  cases h with
  | failed h => exact absurd rfl h
  | @created a pre post halloc hsucceeds hcap hlist hordered =>
    refine ⟨hsucceeds, rfl, rfl, rfl, rfl, ?_, hcap⟩
    show (pre ++ newSlab cache.Size a :: post).length = cache.SlabList.length + 1
    rw [hlist]
    simp only [List.length_append, List.length_cons]
    omega

theorem cacheDestroySlab_oneLess (client : Client σ) {slab : Slab} {pre : List Slab}
    (h : Slabs cache.Size cache.SlabList) (hlist : cache.SlabList = pre ++ [slab]) (c : σ)
    (hpre : (cacheDestroySlab client cache slab c).1.SlabList = pre) :
    OneLess cache (cacheDestroySlab client cache slab c).1 := by
  have hgood := h.good slab (by simp [hlist])
  refine ⟨rfl, rfl, ?_, rfl, ?_⟩
  · show ulongSub cache.Count slab.Allocated.Size = _
    rw [hgood.allocatedSize]
  · rw [hpre, hlist, List.length_append, List.length_singleton]

namespace Counts

variable {P : Cache n → Prop} {Q : Cache n → SlabAlloc → Prop}

/-- `CacheCreateSlab`. -/
theorem create (hP : Counts Q P) (h : Created cache alloc status cache') (hQ : Q cache alloc)
    (hp : P cache) : P cache' := by
  by_cases hst : status = .success
  · subst hst
    obtain ⟨hsucceeds, hmore⟩ := h.oneMore
    exact hP.created hp hQ hsucceeds hmore
  · cases h with
    | failed => exact hp
    | created => exact absurd rfl hst

theorem getFromCursor (hP : Counts Q P) (client : Client σ) (hp : P cache) (a : ℕ) (c : σ) :
    P (ObjectCache.getFromCursor client cache a c).2.1 := by
  unfold ObjectCache.getFromCursor
  split
  · exact hp
  · exact hP.same hp ⟨rfl, rfl, rfl, rfl, List.length_map _⟩

/-- **`CacheGet` with the lock held.** -/
theorem getLocked (hP : Counts Q P) (client : Client σ) (h : Ordered cache) (hsize : SoundSize cache.Size)
    (hguard : cache.Cursor = none → cache.Fresh alloc ∧ Q cache alloc) (hp : P cache) (c : σ) :
    P (cacheGetLocked client cache alloc c).2.1 := by
  unfold cacheGetLocked
  cases hcur : cache.Cursor with
  | some a => exact hP.getFromCursor client hp a c
  | none =>
    obtain ⟨hfresh, hQ⟩ := hguard hcur
    obtain ⟨status, cache', hcreate, hcreated⟩ := cacheCreateSlab_spec h hsize alloc hfresh
    have hp' := hP.create hcreated hQ hp
    rw [hcreate]
    by_cases hst : status = .success
    · subst hst
      obtain ⟨a, ha⟩ := hcreated.cursor hsize
      simp only [ha]
      exact hP.getFromCursor client hp' a c
    · cases status <;> first | exact absurd rfl hst | exact hp'

/-- **`CachePut` with the lock held.** -/
theorem putLocked (hP : Counts Q P) (h : Ordered cache) (hsize : SoundSize cache.Size) {o : ℕ}
    (ho : o ∈ cache.allocated) (hput : cachePutLocked cache o = some cache') (hp : P cache) :
    P cache' := by
  obtain ⟨pre, slab, post, pre', post', i, hlist, hlist', hi, rfl, hput', -⟩ :=
    cachePutLocked_spec h hsize ho
  obtain rfl := Option.some.inj (hput.symm.trans hput')
  refine hP.same hp ⟨rfl, rfl, rfl, rfl, ?_⟩
  have hlength := congrArg List.length hlist'
  show (pre' ++ { slab with Allocated := cacheMaskClear slab.Allocated i } :: post').length = _
  rw [hlist]
  simp only [List.length_append, List.length_cons] at hlength ⊢
  omega

/-- **`CacheFill`**, which creates a slab only while there are fewer objects than it was asked for. -/
theorem fill (hP : Counts Q P) (client : Client σ) {Q' : Cache n → SlabAlloc → Prop} {Count : ℕ}
    {allocs : List SlabAlloc} (h : Ordered cache) (hsize : SoundSize cache.Size)
    (hguard : FillAll Q' Count allocs cache) (hfresh : ∀ cache alloc, Q' cache alloc → cache.Fresh alloc)
    (hQ : ∀ cache alloc, P cache → cache.Count < Count → Q' cache alloc → Q cache alloc)
    (hp : P cache) (c : σ) : P (cacheFill Count allocs cache).2 := by
  induction allocs generalizing cache with
  | nil =>
    unfold cacheFill
    split_ifs
    · obtain ⟨status, cache', hcreate, hcreated⟩ :=
        cacheCreateSlab_spec h hsize ⟨none, false, false⟩ fun _ hmem => absurd hmem (Option.not_mem_none _)
      rw [hcreate]
      cases hcreated with
      | failed => exact hp
      | created halloc => cases halloc
    · exact hp
  | cons alloc allocs ih =>
    unfold cacheFill
    split_ifs with hlt
    · obtain ⟨hguard', hrest⟩ := hguard hlt
      have hfresh' := hfresh _ _ hguard'
      obtain ⟨status, cache', hcreate, hcreated⟩ := cacheCreateSlab_spec h hsize alloc hfresh'
      have hp' := hP.create hcreated (hQ _ _ hp hlt hguard') hp
      obtain ⟨hsec, -⟩ := hcreated.section client h (A := cache.SlabList.map Slab.Address ++
        alloc.Slab.toList) (fun slab hslab => List.mem_append_left _ (List.mem_map_of_mem hslab))
        (fun a ha => List.mem_append_right _ (by simpa using ha)) c
      rw [hcreate] at hrest ⊢
      by_cases hst : status = .success
      · subst hst
        exact ih hsec.ordered (hsec.kept.size ▸ hsize) (hrest rfl) hp'
      · cases status <;> first | exact absurd rfl hst | exact hp'
    · exact hp

theorem spillLoop (hP : Counts Q P) (client : Client σ) (Count fuel : ℕ) (h : Ordered cache)
    (hsize : SoundSize cache.Size) (hp : P cache) (c : σ) :
    P (ObjectCache.spillLoop client Count fuel cache c).1 := by
  induction fuel generalizing cache c with
  | zero => exact hp
  | succ fuel ih =>
    unfold ObjectCache.spillLoop
    obtain hnil | ⟨pre, slab, hlist⟩ := List.eq_nil_or_concat cache.SlabList
    · rw [hnil]
      exact hp
    · have hlist : cache.SlabList = pre ++ [slab] := by simpa using hlist
      have hlast : cache.SlabList.getLast? = some slab := by simp [hlist]
      simp only [hlast]
      split_ifs with hempty hcount
      · exact hp
      · exact hp
      · obtain ⟨cache', c', hdestroy, hpre, hsec, -⟩ := cacheDestroySlab_section client h hlist hsize
          (A := cache.SlabList.map Slab.Address) (fun x hx => List.mem_map_of_mem hx)
          (by simpa using hempty) c
        have hless := cacheDestroySlab_oneLess client h.slabs hlist c (by rw [hdestroy]; exact hpre)
        rw [hdestroy] at hless ⊢
        exact ih hsec.ordered (hsec.kept.size ▸ hsize) (hP.destroyed hp hless) c'

/-- **`CacheSpill`.** -/
theorem spill (hP : Counts Q P) (client : Client σ) (Count : ℕ) (h : Ordered cache)
    (hsize : SoundSize cache.Size) (hp : P cache) (c : σ) :
    P (cacheSpill client Count cache c).1 := by
  unfold cacheSpill
  split_ifs
  · exact hp
  · exact hP.spillLoop client Count _ h hsize hp c

/-- **A step** whose creations of slabs meet the condition. -/
theorem step {a : Act n} (hP : Counts Q P) (h : Owned s) (hp : P s.cache)
    (hG : Creates (fun cache alloc => cache.Fresh alloc ∧ Q cache alloc) s a) (hs : Happens client s a t) :
    P t.cache := by
  cases hs with
  | taken => exact hP.same hp ⟨rfl, rfl, rfl, rfl, rfl⟩
  | missed => exact hp
  | @got cpu alloc x cache c A hpending hlocked =>
    have := hP.getLocked client h.ordered h.size hG hp s.client
    rw [hlocked] at this
    exact hP.same this ⟨rfl, rfl, rfl, rfl, rfl⟩
  | @failed cpu alloc cache c A hpending hlocked =>
    have := hP.getLocked client h.ordered h.size hG hp s.client
    rwa [hlocked] at this
  | stored => exact hP.same hp ⟨rfl, rfl, rfl, rfl, rfl⟩
  | returning => exact hp
  | returned hpending hlocked =>
    have hx := h.allocated (clients_pos_of_put s.held hpending)
    exact hP.same (hP.putLocked h.ordered h.size hx hlocked hp) ⟨rfl, rfl, rfl, rfl, rfl⟩
  | same hmaintains =>
    cases hmaintains with
    | fill =>
      have hguard : FillAll (fun cache alloc => cache.Fresh alloc ∧ Q cache alloc) _ _ s.cache := hG
      exact hP.fill client h.ordered h.size hguard (fun _ _ hQ => hQ.1) (fun _ _ _ _ hQ => hQ.2) hp s.client
    | spill => exact hP.spill client _ h.ordered h.size hp s.client
    | @createSlab alloc =>
      obtain ⟨hfresh, hQ⟩ := hG
      obtain ⟨status, cache', hcreate, hcreated⟩ := cacheCreateSlab_spec h.ordered h.size alloc hfresh
      show P (cacheCreateSlab s.cache alloc).2
      rw [hcreate]
      exact hP.create hcreated hQ hp

end Counts

/-! ## The counts -/

/-- The counts agree with the length of the list. -/
structure Counted (cache : Cache n) : Prop where
  count : cache.Count = cache.SlabList.length * slabCount cache.Size
  cap : cache.Count ≤ cache.Cap
  slabs : cache.CurrentSlabs = cache.SlabList.length
  small : cache.CurrentSlabs < 2147483648

/-- **Slabs that are created and destroyed keep the counts**, if no sum wraps. -/
theorem counts_counted : Counts (fun (cache : Cache n) alloc => cache.Exact alloc) Counted where
  same h hsame :=
    ⟨by rw [hsame.count, hsame.length, hsame.size, h.count], by rw [hsame.count, hsame.cap]; exact h.cap,
      by rw [hsame.currentSlabs, hsame.length, h.slabs], by rw [hsame.currentSlabs]; exact h.small⟩
  created h hexact hsucceeds hmore := by
    obtain ⟨hlt, hsmall⟩ := hexact hsucceeds hmore.le
    have hcount := hmore.count
    rw [Nat.mod_eq_of_lt hlt] at hcount
    have hslabs := hmore.currentSlabs
    rw [long32_of_mem (by have := h.slabs; omega) hsmall] at hslabs
    refine ⟨?_, ?_, ?_, ?_⟩
    · rw [hcount, hmore.length, hmore.size, h.count, Nat.add_mul, Nat.one_mul]
    · rw [hmore.count, hmore.cap]
      exact hmore.le
    · rw [hslabs, hmore.length, h.slabs, Nat.cast_succ]
    · rwa [hslabs]
  destroyed {cache cache'} h hless := by
    have hcount := h.count
    rw [hless.length, Nat.add_mul, Nat.one_mul] at hcount
    have hsub : cache'.Count = cache'.SlabList.length * slabCount cache.Size := by
      rw [hless.count, hcount, ulongSub_of_le (Nat.le_add_left _ _), Nat.add_sub_cancel]
    have hlength := h.slabs
    rw [hless.length] at hlength
    have hslabs : cache'.CurrentSlabs = cache'.SlabList.length := by
      have := h.small
      rw [hless.currentSlabs, long32_of_mem (by omega) (by omega)]
      omega
    refine ⟨?_, ?_, hslabs, ?_⟩
    · rw [hsub, hless.size]
    · rw [hless.cap]
      exact (by omega : cache'.Count ≤ cache.Count).trans h.cap
    · have := h.small
      omega

/-- **A step keeps the counts.** -/
theorem Counted.step {a : Act n} (h : Owned s) (hc : Counted s.cache) (hG : Tallying s a)
    (hs : Happens client s a t) : Counted t.cache :=
  counts_counted.step h hc hG hs

/-! ## The audit -/

/-- `CacheAudit` finds the cursor where it should be. -/
theorem auditCursor_of_firstFree {l : List Slab} {m : ℕ} (h : ∀ slab ∈ l, slab.Good m) :
    auditCursor (firstFree l) l = true := by
  induction l with
  | nil => rfl
  | cons slab l ih =>
    have hgood := h slab List.mem_cons_self
    have hle := hgood.count_le.trans hgood.constructedLe
    have hl := ih fun x hx => h x (List.mem_cons_of_mem _ hx)
    rw [auditCursor, firstFree_cons]
    cases hfull : slab.full with
    | true =>
      have : ¬ slab.Allocated.Count < slab.Allocated.Size := by
        rw [hgood.full_iff.mp hfull, hgood.allocatedSize]
        exact lt_irrefl m
      rw [if_neg this, if_pos rfl, hl]
    | false =>
      have : slab.Allocated.Count < slab.Allocated.Size := by
        rw [hgood.allocatedSize]
        exact hgood.lt_of_not_full hfull
      rw [if_pos this]
      simp

/-- `CacheAudit` finds the slabs in order. -/
theorem auditOrder_of_sorted {l : List Slab} (h : Sorted l) {Count : ℕ}
    (hle : ∀ slab ∈ l, slab.Allocated.Count ≤ Count) : auditOrder Count l = true := by
  induction l generalizing Count with
  | nil => rfl
  | cons slab l ih =>
    obtain ⟨hslab, hl⟩ := List.pairwise_cons.mp h
    rw [auditOrder, decide_eq_true (hle slab List.mem_cons_self), ih hl hslab]
    rfl

theorem Owned.audited (h : Owned s) (hc : Counted s.cache) : Audited s where
  noFault := h.noFault
  sorted := h.ordered.sorted
  cursor := h.ordered.cursor
  count := by
    have hall : ∀ slab ∈ s.cache.SlabList, slab.Allocated.Size = slabCount s.cache.Size :=
      fun slab hslab => (h.ordered.slabs.good slab hslab).allocatedSize
    rw [List.map_congr_left hall, List.map_const', List.sum_replicate, hc.count]
    rfl
  cap := hc.cap
  currentSlabs := hc.slabs
  maskCount slab hslab :=
    have hgood := h.ordered.slabs.good slab hslab
    ⟨hgood.allocatedCount, hgood.constructedCount⟩
  subset slab hslab := (h.ordered.slabs.good slab hslab).subset
  contiguous slab hslab := by
    have hgood := h.ordered.slabs.good slab hslab
    rw [← hgood.constructedCount]
    exact hgood.contiguous
  audit := by
    have hgood := h.ordered.slabs.good
    rw [cacheAudit, h.ordered.cursor, auditCursor_of_firstFree hgood, Bool.true_and]
    refine auditOrder_of_sorted h.ordered.sorted fun slab hslab => ?_
    have hle := (hgood slab hslab).count_le.trans (hgood slab hslab).constructedLe
    have := slabCount_lt s.cache.Size
    omega

/-- **The order of the slabs and the audit, along every run.** -/
theorem audited_of_reaches (c : σ) {Size Reservation Cap : ℕ} (hsize : SoundSize (p2RoundUp Size 8))
    (h : Reaches (step client) Tallying (init n Size Reservation Cap c) s) : Audited s := by
  have hinv : Owned s ∧ Counted s.cache := by
    refine h.invariant (P := fun s : State n σ => Owned s ∧ Counted s.cache)
      ⟨owned_init c hsize, ?_⟩ ?_
    · exact ⟨(Nat.zero_mul _).symm, Nat.zero_le _, rfl, by norm_num [init, newCache]⟩
    · rintro s a t ⟨ho, hc⟩ hG hs
      have hhappens := ho.happens (hG.mono fun _ _ h => h.1) hs
      exact ⟨ho.happened hhappens, hc.step ho hG hhappens⟩
  exact hinv.1.audited hinv.2

/-! ## Runs -/

/-- A constructor that refuses the object at one address. -/
def choosyClient (bad : ℕ) : Client Unit :=
  ⟨fun o _ => (if o = bad then .unsuccessful else .success, ()), fun _ _ => ()⟩

/-- A cache of 3 objects to a slab: 6 of them are reserved, 2 taken, and a third is refused; the spill
takes one slab. -/
theorem audited_of_reaches_refused : ∃ s : State 1 Unit,
    guardedRun (step (choosyClient 6192)) Tallying (init 1 1024 6 6 ())
      [.fill 6 [page 4096, page 8192], .get 0, .getLocked 0 ⟨none, true, true⟩,
        .get 0, .getLocked 0 ⟨none, true, true⟩, .get 0, .getLocked 0 ⟨none, true, true⟩, .spill 0] =
        some s ∧ s.held = [5168, 4144] ∧ s.cache.Count = 3 ∧ Audited s := by
  obtain ⟨s, hs, hheld⟩ := (Option.any_eq_true
    (fun s : State 1 Unit => s.held == [5168, 4144] && s.cache.Count == 3)
    (guardedRun (step (choosyClient 6192)) Tallying (init 1 1024 6 6 ())
      [.fill 6 [page 4096, page 8192], .get 0, .getLocked 0 ⟨none, true, true⟩,
        .get 0, .getLocked 0 ⟨none, true, true⟩, .get 0, .getLocked 0 ⟨none, true, true⟩,
        .spill 0])).mp (by decide +kernel)
  obtain ⟨hheld, hcount⟩ := Bool.and_eq_true_iff.mp hheld
  exact ⟨s, hs, eq_of_beq hheld, eq_of_beq hcount,
    audited_of_reaches () (by decide +kernel) (reaches_of_guardedRun hs)⟩

/-- With objects of 4056 bytes, `CachePut` takes the second page of a slab for a slab. -/
theorem not_audited_of_two_pages : ∃ s : State 1 Unit,
    guardedRun (step plainClient) Tallying (init 1 4056 0 0 ()) twoPageRun = some s ∧
      ¬ Audited s := by
  obtain ⟨s, hs, hfault⟩ := (Option.any_eq_true (fun s : State 1 Unit => s.fault)
    (guardedRun (step plainClient) Tallying (init 1 4056 0 0 ()) twoPageRun)).mp (by decide +kernel)
  refine ⟨s, hs, fun h => ?_⟩
  rw [h.noFault] at hfault
  exact Bool.false_ne_true hfault

end XenBus.ObjectCache
