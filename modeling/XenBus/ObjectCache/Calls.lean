import XenBus.ObjectCache.System

/-!
# Whole calls

`CacheGet`, `CachePut`, `CacheCreate` and `CacheDestroy` as their callers see them when no other call
runs in between, and what each of them does to the constructed objects (`Effect`). `CacheDestroy` puts the
objects of the magazines back without moving their slabs in the list, so the spill that follows it finds
the slabs in any order.
-/

namespace XenBus.ObjectCache

open MachineInt Construction

variable {n : ℕ} {σ : Type*} {client : Client σ} {c c' : σ} {A held : List ℕ} {o x : ℕ}
  {cache cache' cache'' : Cache n} {alloc : SlabAlloc} {cpu : Fin n}

/-! ## The calls -/

/-- `CacheGet`. -/
def cacheGet (client : Client σ) (cache : Cache n) (cpu : Fin n) (alloc : SlabAlloc) (c : σ) :
    Option ℕ × Cache n × σ :=
  match cacheGetObjectFromMagazine (cache.Magazine cpu) with
  | (some Object, magazine) => (some Object, countGet (cache.withMagazine cpu magazine), c)
  | (none, _) =>
    match cacheGetLocked client cache alloc c with
    | (some Object, cache', c') => (some Object, countGet cache', c')
    | failed => failed

/-- `CachePut`. -/
def cachePut (cache : Cache n) (cpu : Fin n) (Object : ℕ) : Option (Cache n) :=
  match cachePutObjectToMagazine Object (cache.Magazine cpu) with
  | some magazine => some (countPut (cache.withMagazine cpu magazine))
  | none => (cachePutLocked cache Object).map countPut

/-- `CachePutObjectToSlab` in `__CacheFlushMagazines`, which leaves the slab where it is. -/
def putBack (cache : Cache n) (Object : ℕ) : Option (Cache n) := do
  let slab ← KeyedList.lookup Slab.Address cache.SlabList (pageAlign Object)
  let slab' ← cachePutObjectToSlab cache.Size slab Object
  return { cache with SlabList := KeyedList.replace Slab.Address cache.SlabList slab' }

/-- The inner loop of `__CacheFlushMagazines`; a magazine of `fuel` slots is empty after it. -/
def flushMagazine (cpu : Fin n) : ℕ → Cache n → Option (Cache n)
  | 0, cache => some cache
  | fuel + 1, cache =>
    match cacheGetObjectFromMagazine (cache.Magazine cpu) with
    | (none, _) => some cache
    | (some Object, magazine) =>
      (putBack (cache.withMagazine cpu magazine) Object).bind (flushMagazine cpu fuel)

/-- The outer loop of `__CacheFlushMagazines`. -/
def flushMagazines : List (Fin n) → Cache n → Option (Cache n)
  | [], cache => some cache
  | cpu :: cpus, cache =>
    (flushMagazine cpu (cache.Magazine cpu).length cache).bind (flushMagazines cpus)

/-- `__CacheFlushMagazines`. -/
def cacheFlushMagazines (cache : Cache n) : Option (Cache n) := flushMagazines (List.finRange n) cache

/-- The outcomes of the allocations in `CacheCreate`. -/
structure CreateOutcome where
  Cache : Bool
  Name : Bool
  Slabs : List SlabAlloc
  Magazine : Bool

/-- `CacheCreate`: the status, and the cache. -/
def cacheCreate (client : Client σ) (n Size Reservation Cap : ℕ) (outcome : CreateOutcome) (c : σ) :
    Status × Option (Cache n) × σ :=
  let cache := newCache n Size Reservation Cap
  if !outcome.Cache then (.noMemory, none, c)
  else if !outcome.Name then (.unsuccessful, none, c)
  else if cache.Reservation > cache.Cap then (.invalidParameter, none, c)
  else
    match cacheFill cache.Reservation outcome.Slabs cache with
    | (.success, cache') =>
      if !outcome.Magazine then (.noMemory, none, (cacheSpill client 0 cache' c).2)
      else (.success, some cache', c)
    | (status, _) => (status, none, c)

/-- `CacheDestroy`, with the slabs that are left. -/
def cacheDestroy (client : Client σ) (cache : Cache n) (c : σ) : Option (List Slab × σ) :=
  (cacheFlushMagazines cache).map fun cache' =>
    let (cache'', c') := cacheSpill client 0 cache' c
    (cache''.SlabList, c')

/-! ## Caches between calls -/

/-- The invariant of a cache between calls: its users have the objects `held`. -/
structure InUse (cache : Cache n) (held : List ℕ) : Prop where
  size : SoundSize cache.Size
  ordered : Ordered cache
  balance : Balance cache.allocated cache.total held (fun _ => .idle) cache.Magazine

/-- What a call does to the constructed objects, all at addresses in `A`. -/
structure Effect (client : Client σ) (A : List ℕ) (cache : Cache n) (c : σ) (cache' : Cache n) (c' : σ) :
    Prop where
  size : cache'.Size = cache.Size
  addresses : ∀ slab ∈ cache'.SlabList, slab.Address ∈ A
  steps : Steps client.life (within A) (cache.constructed, c) (cache'.constructed, c')

theorem Section.effect (h : Section client A cache c cache' c') : Effect client A cache c cache' c' :=
  ⟨h.kept.size, h.addresses, h.steps⟩

theorem inUse_new {Size Reservation Cap : ℕ} (hsize : SoundSize (p2RoundUp Size 8)) :
    InUse (newCache n Size Reservation Cap) [] := by
  have h : Owned (init n Size Reservation Cap ()) := owned_init () hsize
  exact ⟨h.size, h.ordered, h.balance⟩

/-- The magazines and the counts do not matter for the slabs. -/
theorem Effect.congr (h : Effect client A cache c cache' c') (hsize : cache''.Size = cache'.Size)
    (hlist : cache''.SlabList = cache'.SlabList) : Effect client A cache c cache'' c' where
  size := hsize.trans h.size
  addresses := hlist ▸ h.addresses
  steps := by
    have hconstructed : cache''.constructed = cache'.constructed := by
      rw [Cache.constructed, hsize, hlist]
      rfl
    rw [hconstructed]
    exact h.steps

/-- **`CacheGet`.** -/
theorem cacheGet_spec (client : Client σ) (h : InUse cache held)
    (hA : ∀ slab ∈ cache.SlabList, slab.Address ∈ A) (halloc : ∀ a ∈ alloc.Slab, a ∈ A)
    (hfresh : cache.Fresh alloc) (cpu : Fin n) (c : σ) :
    ∃ o cache' c', cacheGet client cache cpu alloc c = (o, cache', c') ∧
      InUse cache' (o.toList ++ held) ∧ Effect client A cache c cache' c' := by
  unfold cacheGet
  split
  next x m hget =>
    refine ⟨some x, _, c, rfl, ⟨h.size, h.ordered.congr rfl rfl rfl, h.balance.taken hget⟩, ?_⟩
    exact (Section.refl h.ordered hA c).effect.congr rfl rfl
  next =>
    obtain ⟨o, cache', c', hlocked, hsec, hgot⟩ :=
      cacheGetLocked_section client h.ordered h.size hA halloc (fun _ => hfresh) c
    have hbalance := h.balance
    rw [hlocked]
    cases o with
    | none =>
      have hsame := hgot.none rfl
      rw [← hsame.allocated, ← hsame.total, ← hsec.kept.magazine] at hbalance
      exact ⟨none, cache', c', rfl, ⟨hsec.kept.size.symm ▸ h.size, hsec.ordered, hbalance⟩, hsec.effect⟩
    | some x =>
      obtain ⟨hx, hall, htotal⟩ := hgot.some x rfl
      have hbalance := hbalance.got hx
      rw [← hall, ← htotal, ← hsec.kept.magazine] at hbalance
      refine ⟨some x, _, c', rfl, ⟨hsec.kept.size.symm ▸ h.size, hsec.ordered.congr rfl rfl rfl, hbalance⟩, ?_⟩
      exact hsec.effect.congr rfl rfl

/-- What a user has is allocated. -/
theorem InUse.allocated (h : InUse cache held) (ho : o ∈ held) : o ∈ cache.allocated := by
  by_contra hout
  have hunused := h.balance.unused o hout
  have hin := inMagazines_nonneg (M := cache.Magazine) (o := o)
  have hpos := List.count_pos_iff.mpr ho
  simp only [clients, Pending.count, Finset.sum_const_zero, add_zero] at hunused
  omega

/-- **`CachePut`** of an object that a user has. -/
theorem cachePut_spec (client : Client σ) (h : InUse cache held)
    (hA : ∀ slab ∈ cache.SlabList, slab.Address ∈ A) (ho : o ∈ held) (cpu : Fin n) (c : σ) :
    ∃ cache', cachePut cache cpu o = some cache' ∧ InUse cache' (held.erase o) ∧
      Effect client A cache c cache' c := by
  unfold cachePut
  split
  next m hput =>
    refine ⟨_, rfl, ⟨h.size, h.ordered.congr rfl rfl rfl, h.balance.stored ho hput⟩, ?_⟩
    exact (Section.refl h.ordered hA c).effect.congr rfl rfl
  next =>
    have hmem := h.allocated ho
    obtain ⟨cache', hlocked, hsec, hall, htotal, -⟩ :=
      cachePutLocked_section client h.ordered h.size hA hmem c
    have hput : Function.update (fun _ : Fin n => Pending.idle) cpu (.put o) cpu = .put o :=
      Function.update_self ..
    have hbalance : Balance cache.allocated cache.total (held.erase o)
        (Function.update (fun _ => .idle) cpu (.put o)) cache.Magazine := h.balance.returning ho rfl
    rw [← htotal] at hbalance
    have hbalance := hbalance.returned hmem hput
    rw [Function.update_idem, Function.update_eq_self_iff.mpr rfl] at hbalance
    rw [← hall, ← hsec.kept.magazine] at hbalance
    rw [hlocked]
    refine ⟨_, rfl, ⟨hsec.kept.size.symm ▸ h.size, hsec.ordered.congr rfl rfl rfl, hbalance⟩, ?_⟩
    exact hsec.effect.congr rfl rfl

/-! ## Maintenance between calls -/

theorem InUse.section (h : InUse cache held) (hsec : Section client A cache c cache' c')
    (hsame : SameAllocated cache cache') : InUse cache' held := by
  have hbalance := h.balance
  rw [← hsame.allocated, ← hsame.total, ← hsec.kept.magazine] at hbalance
  exact ⟨hsec.kept.size.symm ▸ h.size, hsec.ordered, hbalance⟩

/-- **`CacheFill`.** -/
theorem cacheFill_spec (client : Client σ) {Count : ℕ} {allocs : List SlabAlloc} (h : InUse cache held)
    (hA : ∀ slab ∈ cache.SlabList, slab.Address ∈ A)
    (hallocs : ∀ alloc ∈ allocs, ∀ a ∈ alloc.Slab, a ∈ A)
    (hfresh : FillAll Cache.Fresh Count allocs cache) (c : σ) :
    InUse (cacheFill Count allocs cache).2 held ∧
      Effect client A cache c (cacheFill Count allocs cache).2 c ∧
      (cacheFill Count allocs cache).2.constructed = cache.constructed := by
  obtain ⟨status, cache', hfill, hsec, hsame, hcon⟩ :=
    cacheFill_section client h.ordered h.size hA hallocs hfresh c
  rw [hfill]
  exact ⟨h.section hsec hsame, hsec.effect, hcon⟩

/-- **`CacheSpill`.** -/
theorem cacheSpill_spec (client : Client σ) (Count : ℕ) (h : InUse cache held)
    (hA : ∀ slab ∈ cache.SlabList, slab.Address ∈ A) (c : σ) :
    InUse (cacheSpill client Count cache c).1 held ∧
      Effect client A cache c (cacheSpill client Count cache c).1 (cacheSpill client Count cache c).2 := by
  obtain ⟨cache', c', hspill, hsec, hsame⟩ := cacheSpill_section client Count h.ordered h.size hA c
  rw [hspill]
  exact ⟨h.section hsec hsame, hsec.effect⟩

/-! ## Spilling slabs in any order -/

theorem objects_subset {mask : Slab → Mask} {Size : ℕ} {l l' : List Slab} (h : l' ⊆ l) :
    objects mask Size l' ⊆ objects mask Size l :=
  fun _ ⟨slab, hslab, ho⟩ => ⟨slab, h hslab, ho⟩

/-- The objects of a slab are at addresses within its page. -/
theorem Slabs.objects_within {Size : ℕ} {l : List Slab} (h : Slabs Size l) (hsize : SoundSize Size)
    {slab : Slab} (hslab : slab ∈ l) (hA : slab.Address ∈ A) :
    slab.objects Size slab.Constructed.Bits ⊆ within A := by
  rintro o ⟨i, hi, rfl⟩
  show pageAlign _ ∈ A
  rwa [hsize.pageAlign_object (h.aligned slab hslab) ((h.good slab hslab).lt_of_mem hi)]

/-- What the loop of `CacheSpill` does when the slabs are in any order. -/
structure Spilled (client : Client σ) (A : List ℕ) (cache : Cache n) (c : σ) (cache' : Cache n) (c' : σ) :
    Prop extends Effect client A cache c cache' c' where
  subset : cache'.SlabList ⊆ cache.SlabList
  slabs : Slabs cache.Size cache'.SlabList

theorem Spilled.refl (h : Slabs cache.Size cache.SlabList)
    (hA : ∀ slab ∈ cache.SlabList, slab.Address ∈ A) (c : σ) : Spilled client A cache c cache c :=
  ⟨⟨rfl, hA, .refl _⟩, List.Subset.refl _, h⟩

/-- The loop of `CacheSpill` destroys the objects of the slabs that it takes from the end. -/
theorem spillLoop_spec (client : Client σ) (Count fuel : ℕ) (h : Slabs cache.Size cache.SlabList)
    (hsize : SoundSize cache.Size) (hA : ∀ slab ∈ cache.SlabList, slab.Address ∈ A) (c : σ) :
    ∃ cache' c', spillLoop client Count fuel cache c = (cache', c') ∧
      Spilled client A cache c cache' c' := by
  induction fuel generalizing cache c with
  | zero => exact ⟨cache, c, rfl, .refl h hA c⟩
  | succ fuel ih =>
    unfold spillLoop
    obtain hnil | ⟨pre, slab, hlist⟩ := List.eq_nil_or_concat cache.SlabList
    · rw [hnil]
      exact ⟨cache, c, rfl, .refl h hA c⟩
    · have hlist : cache.SlabList = pre ++ [slab] := by simpa using hlist
      have hlast : cache.SlabList.getLast? = some slab := by simp [hlist]
      have hslab : slab ∈ cache.SlabList := by simp [hlist]
      simp only [hlast]
      split_ifs
      · exact ⟨cache, c, rfl, .refl h hA c⟩
      · exact ⟨cache, c, rfl, .refl h hA c⟩
      · obtain ⟨hpre, hsteps⟩ := cacheDestroySlab_steps client h hlist hsize c
        have hsize' : (cacheDestroySlab client cache slab c).1.Size = cache.Size := rfl
        generalize cacheDestroySlab client cache slab c = r at hpre hsteps hsize' ⊢
        obtain ⟨cache₁, c₁⟩ := r
        have hsubset : cache₁.SlabList ⊆ cache.SlabList := by
          rw [hpre, hlist]
          exact List.subset_append_left _ _
        have hslabs : Slabs cache₁.Size cache₁.SlabList := by
          rw [hpre, hsize']
          exact (hlist ▸ h).sublist (List.sublist_append_left _ _)
        obtain ⟨cache', c', hspill, hspilled⟩ :=
          ih hslabs (hsize' ▸ hsize) (fun x hx => hA x (hsubset hx)) c₁
        have hsteps' := hsteps.mono (h.objects_within hsize hslab (hA slab hslab))
        have hcon : cache₁.constructed = objects Slab.Constructed cache.Size pre := by
          rw [Cache.constructed, hpre, hsize']
        refine ⟨cache', c', hspill, ⟨⟨hspilled.size.trans hsize', hspilled.addresses, ?_⟩,
          fun x hx => hsubset (hspilled.subset hx), hsize' ▸ hspilled.slabs⟩⟩
        rw [← hcon] at hsteps'
        exact hsteps'.trans hspilled.steps

theorem cacheSpill_steps (client : Client σ) (Count : ℕ) (h : Slabs cache.Size cache.SlabList)
    (hsize : SoundSize cache.Size) (hA : ∀ slab ∈ cache.SlabList, slab.Address ∈ A) (c : σ) :
    ∃ cache' c', cacheSpill client Count cache c = (cache', c') ∧
      Spilled client A cache c cache' c' := by
  unfold cacheSpill
  split_ifs
  · exact ⟨cache, c, rfl, .refl h hA c⟩
  · exact spillLoop_spec client Count _ h hsize hA c

/-! ## Creating and destroying a cache -/

/-- **`CacheCreate`**: the cache has no constructed object, and the client's state is as it was. -/
theorem cacheCreate_spec (client : Client σ) {Size Reservation Cap : ℕ} {outcome : CreateOutcome}
    (hsize : SoundSize (p2RoundUp Size 8))
    (hfresh : FillAll Cache.Fresh Reservation outcome.Slabs (newCache n Size Reservation Cap)) (c : σ)
    (hA : ∀ alloc ∈ outcome.Slabs, ∀ a ∈ alloc.Slab, a ∈ A) :
    ∃ status cache' c', cacheCreate client n Size Reservation Cap outcome c = (status, cache', c') ∧
      Steps client.life (within A) (∅, c) (∅, c') ∧
      ∀ cache ∈ cache', InUse cache [] ∧ cache.Size = p2RoundUp Size 8 ∧ cache.constructed = ∅ ∧
        ∀ slab ∈ cache.SlabList, slab.Address ∈ A := by
  have hnew : InUse (newCache n Size Reservation Cap) [] := inUse_new hsize
  have hempty : (newCache n Size Reservation Cap).constructed = ∅ := by
    ext o
    simp [Cache.constructed, objects, newCache]
  have hfill := cacheFill_spec (A := A) client hnew (fun _ hmem => absurd hmem List.not_mem_nil) hA hfresh c
  rw [hempty] at hfill
  have hnone : ∀ status c', Steps client.life (within A) (∅, c) (∅, c') →
      ∃ status' cache' c'', ((status, none, c') : Status × Option (Cache n) × σ) =
        (status', cache', c'') ∧ Steps client.life (within A) (∅, c) (∅, c'') ∧
        ∀ cache ∈ cache', InUse cache [] ∧ cache.Size = p2RoundUp Size 8 ∧ cache.constructed = ∅ ∧
          ∀ slab ∈ cache.SlabList, slab.Address ∈ A :=
    fun status c' hsteps =>
      ⟨status, none, c', rfl, hsteps, fun _ hmem => absurd hmem (Option.not_mem_none _)⟩
  unfold cacheCreate
  cases outcome.Cache with
  | false => exact hnone _ _ (.refl _)
  | true =>
    cases outcome.Name with
    | false => exact hnone _ _ (.refl _)
    | true =>
      by_cases hcap : (newCache n Size Reservation Cap).Reservation > (newCache n Size Reservation Cap).Cap
      · simp only [Bool.not_true, Bool.false_eq_true, if_false, if_pos hcap]
        exact hnone _ _ (.refl _)
      · simp only [Bool.not_true, Bool.false_eq_true, if_false, if_neg hcap]
        have hres : (newCache n Size Reservation Cap).Reservation = Reservation := rfl
        rw [hres]
        generalize cacheFill Reservation outcome.Slabs (newCache n Size Reservation Cap) = filled at hfill ⊢
        obtain ⟨status, cache'⟩ := filled
        obtain ⟨hfilled, heffect, hcon⟩ := hfill
        cases status with
        | success =>
          cases outcome.Magazine with
          | true =>
            refine ⟨_, _, c, rfl, .refl _, fun cache hcache => ?_⟩
            obtain rfl := Option.some.inj hcache
            exact ⟨hfilled, heffect.size, hcon, heffect.addresses⟩
          | false =>
            -- the slabs that are given back have no constructed object
            obtain ⟨cache'', c'', hspill, hspilled⟩ := cacheSpill_steps client 0
              hfilled.ordered.slabs hfilled.size heffect.addresses c
            have hsteps := hspilled.steps
            have hnil : cache''.constructed = ∅ := by
              apply Set.subset_empty_iff.mp
              rw [← hcon, Cache.constructed, hspilled.size]
              exact objects_subset hspilled.subset
            simp only [Bool.not_false, if_true, hspill]
            rw [hcon, hnil] at hsteps
            exact hnone _ _ hsteps
        | _ => exact hnone _ _ (.refl _)

/-! ## Emptying the magazines -/

/-- What `__CacheFlushMagazines` relies on: the objects of the magazines are allocated, and in one slot. -/
structure Stocked (cache : Cache n) : Prop where
  slabs : Slabs cache.Size cache.SlabList
  once : ∀ o, inMagazines cache.Magazine o ≤ 1
  allocated : ∀ o, 0 < inMagazines cache.Magazine o → o ∈ cache.allocated

theorem InUse.stocked (h : InUse cache held) : Stocked cache := by
  refine ⟨h.ordered.slabs, fun o => ?_, fun o ho => ?_⟩
  · have hclients := clients_nonneg held (fun _ : Fin n => Pending.idle) o
    by_cases hmem : o ∈ cache.allocated
    · have := h.balance.used o hmem
      omega
    · have := h.balance.unused o hmem
      omega
  · by_contra hmem
    have hclients := clients_nonneg held (fun _ : Fin n => Pending.idle) o
    have := h.balance.unused o hmem
    omega

/-- What the flush leaves alone. -/
structure Flushed (cache cache' : Cache n) : Prop where
  size : cache'.Size = cache.Size
  addresses : cache'.SlabList.map Slab.Address = cache.SlabList.map Slab.Address
  constructed : cache'.constructed = cache.constructed

theorem Flushed.trans (h : Flushed cache cache') (h' : Flushed cache' cache'') : Flushed cache cache'' :=
  ⟨h'.size.trans h.size, h'.addresses.trans h.addresses, h'.constructed.trans h.constructed⟩

/-- **An object goes back to its slab**, which stays where it is. -/
theorem putBack_spec (h : Slabs cache.Size cache.SlabList) (hsize : SoundSize cache.Size)
    (ho : o ∈ cache.allocated) : ∃ cache', putBack cache o = some cache' ∧ Flushed cache cache' ∧
      Slabs cache'.Size cache'.SlabList ∧ cache'.allocated = cache.allocated \ {o} ∧
      cache'.Magazine = cache.Magazine := by
  obtain ⟨slab, hslab, i, hi, rfl⟩ := ho
  have hgood := h.good slab hslab
  obtain ⟨pre, post, hlist⟩ := List.append_of_mem hslab
  have hpage := hsize.pageAlign_object (h.aligned slab hslab) (hgood.lt_of_mem (hgood.subset hi))
  have hslabs := h
  rw [hlist] at hslabs
  have hput := cachePutObjectToSlab_spec hgood hsize hi
  have hreplace := KeyedList.replace_append (y := { slab with Allocated := cacheMaskClear slab.Allocated i })
    hslabs.nodup rfl
  refine ⟨{ cache with SlabList := pre ++ { slab with Allocated := cacheMaskClear slab.Allocated i } :: post },
    ?_, ⟨rfl, ?_, ?_⟩, hslabs.replace (hgood.release hi).1 rfl, ?_, rfl⟩
  · simp only [putBack, hpage, hlist, KeyedList.lookup_append hslabs.nodup, hput, hreplace,
      Option.bind_eq_bind, Option.bind_some]
    rfl
  · rw [hlist, List.map_append, List.map_append, List.map_cons, List.map_cons]
  · rw [Cache.constructed, Cache.constructed, hlist, objects_append_cons, objects_append_cons]
    rfl
  · rw [Cache.allocated, Cache.allocated, hlist]
    exact hslabs.objects_release hsize hi rfl

theorem flushMagazine_spec (cpu : Fin n) (fuel : ℕ) (h : Stocked cache) (hsize : SoundSize cache.Size) :
    ∃ cache', flushMagazine cpu fuel cache = some cache' ∧ Flushed cache cache' ∧ Stocked cache' := by
  induction fuel generalizing cache with
  | zero => exact ⟨cache, rfl, ⟨rfl, rfl, rfl⟩, h⟩
  | succ fuel ih =>
    unfold flushMagazine
    split
    next => exact ⟨cache, rfl, ⟨rfl, rfl, rfl⟩, h⟩
    next x m hget =>
      obtain ⟨hcount, -⟩ := cacheGetObjectFromMagazine_spec hget
      have hin : ∀ o, inMagazines (Function.update cache.Magazine cpu m) o =
          inMagazines cache.Magazine o - (if x = o then 1 else 0) := fun o => by
        rw [inMagazines_update, hcount o]
        split_ifs <;> omega
      have hx : x ∈ cache.allocated := by
        apply h.allocated
        have hnonneg := inMagazines_nonneg (M := Function.update cache.Magazine cpu m) (o := x)
        rw [hin x, if_pos rfl] at hnonneg
        omega
      obtain ⟨cache₁, hput, hflushed, hslabs, hall, hmagazine⟩ :=
        putBack_spec (show Slabs (cache.withMagazine cpu m).Size (cache.withMagazine cpu m).SlabList from
          h.slabs) hsize hx
      have hstocked : Stocked cache₁ := by
        refine ⟨hslabs, fun o => ?_, fun o ho => ?_⟩
        · rw [hmagazine]
          have := h.once o
          have := hin o
          show inMagazines (Function.update cache.Magazine cpu m) o ≤ 1
          split_ifs at this <;> omega
        · rw [hmagazine] at ho
          change 0 < inMagazines (Function.update cache.Magazine cpu m) o at ho
          rw [hin o] at ho
          rw [hall]
          have := h.once o
          split_ifs at ho with heq
          · omega
          · exact ⟨h.allocated o (by omega), fun hox => heq hox.symm⟩
      obtain ⟨cache', hflush, hflushed', hstocked'⟩ := ih hstocked (hflushed.size ▸ hsize)
      refine ⟨cache', ?_, .trans ⟨hflushed.size, hflushed.addresses, hflushed.constructed⟩ hflushed',
        hstocked'⟩
      rw [hput, Option.bind_some, hflush]

theorem flushMagazines_spec (cpus : List (Fin n)) (h : Stocked cache) (hsize : SoundSize cache.Size) :
    ∃ cache', flushMagazines cpus cache = some cache' ∧ Flushed cache cache' ∧ Stocked cache' := by
  induction cpus generalizing cache with
  | nil => exact ⟨cache, rfl, ⟨rfl, rfl, rfl⟩, h⟩
  | cons cpu cpus ih =>
    obtain ⟨cache₁, hflush, hflushed, hstocked⟩ := flushMagazine_spec cpu (cache.Magazine cpu).length h hsize
    obtain ⟨cache', hrest, hflushed', hstocked'⟩ := ih hstocked (hflushed.size ▸ hsize)
    exact ⟨cache', by rw [flushMagazines, hflush, Option.bind_some, hrest], hflushed.trans hflushed', hstocked'⟩

/-- **`CacheDestroy`**, with the slabs that are left. -/
theorem cacheDestroy_spec (client : Client σ) (h : InUse cache held)
    (hA : ∀ slab ∈ cache.SlabList, slab.Address ∈ A) (c : σ) :
    ∃ l c', cacheDestroy client cache c = some (l, c') ∧ Slabs cache.Size l ∧
      (∀ slab ∈ l, slab.Address ∈ A) ∧
      Steps client.life (within A) (cache.constructed, c) (objects Slab.Constructed cache.Size l, c') := by
  obtain ⟨cache₁, hflush, hflushed, hstocked⟩ := flushMagazines_spec (List.finRange n) h.stocked h.size
  have hA₁ : ∀ slab ∈ cache₁.SlabList, slab.Address ∈ A := fun slab hslab => by
    have hmem : slab.Address ∈ cache.SlabList.map Slab.Address := by
      rw [← hflushed.addresses]
      exact List.mem_map_of_mem hslab
    obtain ⟨x, hx, heq⟩ := List.mem_map.mp hmem
    exact heq ▸ hA x hx
  obtain ⟨cache₂, c', hspill, hspilled⟩ :=
    cacheSpill_steps client 0 hstocked.slabs (hflushed.size ▸ h.size) hA₁ c
  refine ⟨cache₂.SlabList, c', ?_, ?_, hspilled.addresses, ?_⟩
  · rw [cacheDestroy, cacheFlushMagazines, hflush, Option.map_some, hspill]
  · rw [← hflushed.size]
    exact hspilled.slabs
  · have hsteps := hspilled.steps
    have hcon : cache₂.constructed = objects Slab.Constructed cache.Size cache₂.SlabList := by
      rw [Cache.constructed, hspilled.size, hflushed.size]
    rwa [hflushed.constructed, hcon] at hsteps

end XenBus.ObjectCache
