import XenBus.ObjectCache.Tally

/-!
# Creating a cache, and failing to

`CacheCreate` with the blocks of memory that it and the functions it calls allocate and free, and with the
record of the cache as it is when it is freed again.

A failure before the first slab is created leaves nothing behind. `fail4`, to which a `CacheFill` that has
created some of the slabs leads, does not destroy them, and no label clears `MaximumSlabs`, as `CacheDestroy`
does: `leavesNothing_iff` says that these are the cases in which something is left.
-/

namespace XenBus.ObjectCache

open MachineInt

/-! ## Blocks -/

/-- What `CacheCreate` allocates: the record, the magazines, and each slab with its two masks. -/
inductive Block
  | record
  | magazines
  | slab (Address : ℕ)
  | constructed (Address : ℕ)
  | allocated (Address : ℕ)
  deriving DecidableEq

variable {n : ℕ} {σ : Type*} {client : Client σ} {c : σ} {cache cache' : Cache n} {alloc : SlabAlloc}
  {allocs : List SlabAlloc} {live : List Block} {Addresses : List ℕ}

/-- `__CacheFree`: there is no result if the block is not allocated. -/
def cacheFree (block : Block) (live : List Block) : Option (List Block) :=
  if block ∈ live then some (live.erase block) else none

/-- The blocks after `CacheCreateSlab`. -/
def createSlabBlocks (cache : Cache n) (alloc : SlabAlloc) (live : List Block) : Option (List Block) :=
  if (cache.Count + slabCount cache.Size) % 4294967296 > cache.Cap then some live
  else
    match (if slabBytes cache.Size = 0 then none else alloc.Slab) with
    | none => some live
    | some Address =>
      if !alloc.Constructed then cacheFree (.slab Address) (.slab Address :: live)
      else if !alloc.Allocated then
        (cacheFree (.constructed Address) (.constructed Address :: .slab Address :: live)).bind
          (cacheFree (.slab Address))
      else some (.allocated Address :: .constructed Address :: .slab Address :: live)

/-- The blocks after `CacheFill`. -/
def fillBlocks (Count : ℕ) : List SlabAlloc → Cache n → List Block → Option (List Block)
  | [], cache, live =>
    if cache.Count < Count then createSlabBlocks cache ⟨none, false, false⟩ live else some live
  | alloc :: allocs, cache, live =>
    if cache.Count < Count then
      (createSlabBlocks cache alloc live).bind fun live =>
        match cacheCreateSlab cache alloc with
        | (.success, cache') => fillBlocks Count allocs cache' live
        | _ => some live
    else some live

/-- The blocks after `CacheDestroySlab`. -/
def destroySlabBlocks (slab : Slab) (live : List Block) : Option (List Block) :=
  (cacheFree (.allocated slab.Address) live).bind fun live =>
    (cacheFree (.constructed slab.Address) live).bind (cacheFree (.slab slab.Address))

/-- The blocks after the loop of `CacheSpill`, for `fuel` slabs. -/
def spillLoopBlocks (client : Client σ) (Count : ℕ) :
    ℕ → Cache n → σ → List Block → Option (List Block)
  | 0, _, _, live => some live
  | fuel + 1, cache, s, live =>
    match cache.SlabList.getLast? with
    | none => some live
    | some slab =>
      if slab.Allocated.Count ≠ 0 then some live
      else if ulongSub cache.Count slab.Allocated.Size < Count then some live
      else
        (destroySlabBlocks slab live).bind
          (spillLoopBlocks client Count fuel (cacheDestroySlab client cache slab s).1
            (cacheDestroySlab client cache slab s).2)

/-- The blocks after `CacheSpill`. -/
def spillBlocks (client : Client σ) (Count : ℕ) (cache : Cache n) (s : σ) (live : List Block) :
    Option (List Block) :=
  if cache.Count ≤ Count then some live
  else spillLoopBlocks client Count cache.SlabList.length cache s live

/-! ## The call -/

/-- `MAXNAMELEN`. -/
abbrev MAXNAMELEN : ℕ := 128

/-- `XENBUS_CACHE` with its name, callbacks and `MagazineCount`. -/
structure Record (n : ℕ) where
  /-- The bytes of `Name` before the terminator. -/
  Name : List ℕ
  /-- `Ctor`, `Dtor`, `AcquireLock`, `ReleaseLock` and `Argument` are set. -/
  Callbacks : Bool
  MagazineCount : ℕ
  cache : Cache n

/-- `IsZeroMemory` of the record, whose list is empty. -/
def Record.IsZero (record : Record n) : Prop :=
  record.Name = [] ∧ record.Callbacks = false ∧ record.MagazineCount = 0 ∧ record.cache.IsZero

instance (record : Record n) : Decidable record.IsZero := inferInstanceAs (Decidable (_ ∧ _))

/-- A record that has just been allocated. -/
def zeroCache (n : ℕ) : Cache n := { newCache n 0 0 0 with Cap := 0 }

/-- The outcomes of the allocations in `CacheCreate`. -/
structure Allocations where
  Cache : Bool
  Slabs : List SlabAlloc
  Magazine : Bool

/-- What `CacheCreate` leaves. -/
structure CreateResult (n : ℕ) (σ : Type*) where
  status : Status
  /-- `*Cache`. -/
  cache : Option (Cache n)
  /-- `Context->List`. -/
  list : List (Cache n)
  /-- The blocks that the call has allocated and not freed. -/
  live : List Block
  /-- The record when it is freed, with the slabs that were on its list at the assertion in `fail3`. -/
  freed : Option (Record n)
  client : σ

/-- `CacheCreate` from `fail2` on. -/
def createFail2 (status : Status) (record : Record n) (list : List (Cache n)) (live : List Block) (c : σ) :
    Option (CreateResult n σ) :=
  (cacheFree .record live).map fun live =>
    ⟨status, none, list, live, some { record with Name := [] }, c⟩

/-- `CacheCreate` from `fail3` on, and from `fail4` on. -/
def createFail3 (status : Status) (record : Record n) (list : List (Cache n)) (live : List Block) (c : σ) :
    Option (CreateResult n σ) :=
  createFail2 status
    { record with
      Callbacks := false
      cache := { record.cache with Cursor := none, Cap := 0, Reservation := 0, Size := 0 } } list live c

/-- `CacheCreate` from `fail5` on. -/
def createFail5 (client : Client σ) (status : Status) (record : Record n) (list : List (Cache n))
    (live : List Block) (c : σ) : Option (CreateResult n σ) :=
  (spillBlocks client 0 record.cache c live).bind fun live =>
    let (cache, c') := cacheSpill client 0 record.cache c
    createFail3 status { record with MagazineCount := 0, cache := cache } list live c'

/-- `CacheCreate`. There is no result if a block is freed that is not allocated. The status for a name that is
too long is `STATUS_BUFFER_OVERFLOW`. -/
def cacheCreateTraced (client : Client σ) (n : ℕ) (Name : List ℕ) (Size Reservation Cap : ℕ)
    (outcome : Allocations) (list : List (Cache n)) (c : σ) : Option (CreateResult n σ) :=
  if !outcome.Cache then some ⟨.noMemory, none, list, [], none, c⟩
  else if MAXNAMELEN ≤ Name.length then
    createFail2 .unsuccessful ⟨Name.take (MAXNAMELEN - 1), false, 0, zeroCache n⟩ list [.record] c
  else
    let cache := newCache n Size Reservation Cap
    if cache.Reservation > cache.Cap then
      createFail3 .invalidParameter ⟨Name, true, 0, cache⟩ list [.record] c
    else
      (fillBlocks cache.Reservation outcome.Slabs cache [.record]).bind fun live =>
        match cacheFill cache.Reservation outcome.Slabs cache with
        | (status, cache) =>
          if !status.ntSuccess then createFail3 status ⟨Name, true, 0, cache⟩ list live c
          else if !outcome.Magazine then createFail5 client .noMemory ⟨Name, true, n, cache⟩ list live c
          else some ⟨.success, some cache, list ++ [cache], .magazines :: live, none, c⟩

/-- **Nothing is left** of a call that fails: every block has been freed, the record was zero and its list
empty before it was freed, and the cache is on no list. -/
structure LeavesNothing (list : List (Cache n)) (result : CreateResult n σ) : Prop where
  cache : result.cache = none
  list : result.list = list
  live : result.live = []
  freed : ∀ record ∈ result.freed, record.IsZero

/-- **What the interface promises**: a call that fails leaves nothing, and one that succeeds fills the cache
up to its reservation. -/
def Promise (list : List (Cache n)) (Reservation : ℕ) (result : CreateResult n σ) : Prop :=
  (result.status.ntSuccess = false → LeavesNothing list result) ∧
    (result.status.ntSuccess = true → 0 < Reservation → ∃ cache ∈ result.cache, Reservation ≤ cache.Count)

/-! ## The condition -/

/-- After `i` slabs, another one can be created. -/
def CanCreate (Size Cap i : ℕ) (alloc : SlabAlloc) : Prop :=
  (i + 1) * slabCount Size % 4294967296 ≤ Cap ∧ slabBytes Size ≠ 0 ∧ Succeeds alloc

/-- After `i` slabs, those that are missing for the reservation can be created. -/
def Suffices (Size Reservation Cap i : ℕ) (allocs : List SlabAlloc) : Prop :=
  ∃ k, Reservation ≤ (i + k) * slabCount Size % 4294967296 ∧
    ∀ j < k, ∃ alloc ∈ allocs[j]?, CanCreate Size Cap (i + j) alloc

theorem suffices_nil {Size Reservation Cap i : ℕ} :
    Suffices Size Reservation Cap i [] ↔ Reservation ≤ i * slabCount Size % 4294967296 := by
  constructor
  · rintro ⟨k, hle, hall⟩
    cases k with
    | zero => exact hle
    | succ k =>
      obtain ⟨alloc, halloc, -⟩ := hall 0 (Nat.succ_pos k)
      cases halloc
  · exact fun hle => ⟨0, hle, fun j hj => absurd hj (Nat.not_lt_zero j)⟩

theorem suffices_cons {Size Reservation Cap i : ℕ} :
    Suffices Size Reservation Cap i (alloc :: allocs) ↔ Reservation ≤ i * slabCount Size % 4294967296 ∨
      CanCreate Size Cap i alloc ∧ Suffices Size Reservation Cap (i + 1) allocs := by
  constructor
  · rintro ⟨k, hle, hall⟩
    cases k with
    | zero => exact .inl hle
    | succ k =>
      obtain ⟨first, hfirst, hcan⟩ := hall 0 (Nat.succ_pos k)
      obtain rfl : alloc = first := Option.some.inj hfirst
      refine .inr ⟨hcan, k, ?_, fun j hj => ?_⟩
      · rwa [Nat.add_assoc, Nat.add_comm 1]
      · have hnext := hall (j + 1) (Nat.succ_lt_succ hj)
        rwa [List.getElem?_cons_succ, Nat.add_comm j, ← Nat.add_assoc] at hnext
  · rintro (hle | ⟨hcan, k, hle, hall⟩)
    · exact ⟨0, hle, fun j hj => absurd hj (Nat.not_lt_zero j)⟩
    · refine ⟨k + 1, ?_, fun j hj => ?_⟩
      · rwa [Nat.add_comm k, ← Nat.add_assoc]
      · cases j with
        | zero => exact ⟨alloc, rfl, hcan⟩
        | succ j =>
          have hnext := hall j (Nat.lt_of_succ_lt_succ hj)
          rwa [List.getElem?_cons_succ, Nat.add_comm j, ← Nat.add_assoc]

/-- The call fails before a slab is created, or it does not fail. -/
def EarlyOrNever (Name : List ℕ) (Size Reservation Cap : ℕ) (outcome : Allocations) : Prop :=
  outcome.Cache = false ∨ MAXNAMELEN ≤ Name.length ∨ (if Cap = 0 then 4294967295 else Cap) < Reservation ∨
    Reservation = 0 ∨
    (∀ alloc ∈ outcome.Slabs[0]?,
      ¬ CanCreate (p2RoundUp Size 8) (if Cap = 0 then 4294967295 else Cap) 0 alloc) ∨
    Suffices (p2RoundUp Size 8) Reservation (if Cap = 0 then 4294967295 else Cap) 0 outcome.Slabs ∧
      outcome.Magazine = true

/-! ## The slabs of a new cache -/

/-- The blocks of slabs at addresses. -/
def slabBlocks (Addresses : List ℕ) (live : List Block) : List Block :=
  Addresses.foldl
    (fun live Address => .allocated Address :: .constructed Address :: .slab Address :: live) live

/-- A cache with empty slabs at addresses. -/
structure Holding (Size Cap : ℕ) (Addresses : List ℕ) (cache : Cache n) : Prop where
  size : cache.Size = Size
  cap : cache.Cap = Cap
  list : cache.SlabList = Addresses.map (newSlab Size)
  nodup : Addresses.Nodup
  count : cache.Count = Addresses.length * slabCount Size % 4294967296
  currentSlabs : cache.CurrentSlabs = long32 Addresses.length
  currentObjects : cache.CurrentObjects = 0
  maximumObjects : cache.MaximumObjects = 0

/-- A new cache in which slabs have been created. -/
structure Filled (Size Cap : ℕ) (Addresses : List ℕ) (cache : Cache n) : Prop
    extends Holding Size Cap Addresses cache where
  maximumSlabs : if Addresses = [] then cache.MaximumSlabs = 0 else 0 < cache.MaximumSlabs

theorem cacheFree_cons (block : Block) (live : List Block) : cacheFree block (block :: live) = some live := by
  rw [cacheFree, if_pos List.mem_cons_self, List.erase_cons_head]

theorem Succeeds.eq_some (h : Succeeds alloc) : ∃ Address, alloc = ⟨some Address, true, true⟩ := by
  obtain ⟨Slab, Constructed, Allocated⟩ := alloc
  obtain ⟨hslab, rfl, rfl⟩ := h
  obtain ⟨Address, rfl⟩ := Option.ne_none_iff_exists'.mp hslab
  exact ⟨Address, rfl⟩

theorem slabBlocks_concat (Addresses : List ℕ) (Address : ℕ) (live : List Block) :
    slabBlocks (Addresses ++ [Address]) live =
      .allocated Address :: .constructed Address :: .slab Address :: slabBlocks Addresses live := by
  rw [slabBlocks, List.foldl_append]
  rfl

/-- The walk of `CacheInsertSlab` over empty slabs, with a slab that is empty. -/
theorem insertWalk_empty {New : Slab} (hNew : New.Allocated.Count = 0) (l : List Slab) (Cursor : Option ℕ)  :
    (insertWalk New Cursor l).1 = l ++ [New] := by
  induction l generalizing Cursor with
  | nil => rfl
  | cons slab l ih =>
    rw [insertWalk, if_neg (by rw [hNew]; exact Nat.not_lt_zero _)]
    exact congrArg (List.cons slab) (ih _)

theorem filled_new (n Size Reservation Cap : ℕ) :
    Filled (p2RoundUp Size 8) (if Cap = 0 then 4294967295 else Cap) [] (newCache n Size Reservation Cap) where
  size := rfl
  cap := rfl
  list := rfl
  nodup := List.nodup_nil
  count := by simp [newCache]
  currentSlabs := rfl
  maximumSlabs := by simp [newCache]
  currentObjects := rfl
  maximumObjects := rfl

namespace Filled

variable {Size Cap : ℕ}

theorem sum (h : Filled Size Cap Addresses cache) : (cache.Count + slabCount cache.Size) % 4294967296 =
    (Addresses.length + 1) * slabCount Size % 4294967296 := by
  rw [h.count, h.size, Nat.mod_add_mod, Nat.add_mul, Nat.one_mul]

/-- **`CacheCreateSlab` succeeds**, and its blocks stay. -/
theorem created (h : Filled Size Cap Addresses cache) (hfresh : cache.Fresh alloc)
    (hcan : CanCreate Size Cap Addresses.length alloc) (live : List Block) :
    ∃ Address cache', cacheCreateSlab cache alloc = (.success, cache') ∧
      Filled Size Cap (Addresses ++ [Address]) cache' ∧
      createSlabBlocks cache alloc live = some (slabBlocks [Address] live) := by
  obtain ⟨hcap, hbytes, hsucceeds⟩ := hcan
  obtain ⟨Address, rfl⟩ := hsucceeds.eq_some
  rw [← h.sum, ← h.cap] at hcap
  rw [← h.size] at hbytes
  have hnew : Address ∉ Addresses := fun hmem => by
    refine (hfresh Address rfl).2 ?_
    rw [h.list, List.map_map]
    exact List.mem_map.mpr ⟨Address, hmem, rfl⟩
  refine ⟨Address, _, cacheCreateSlab_of_succeeds hcap hbytes rfl, ⟨⟨?_, ?_, ?_, ?_, ?_, ?_, ?_, ?_⟩, ?_⟩, ?_⟩
  · exact h.size
  · exact h.cap
  · show (insertWalk (newSlab cache.Size Address) none cache.SlabList).1 = _
    rw [insertWalk_empty rfl, h.list, h.size, List.map_append]
    rfl
  · exact List.Nodup.append h.nodup (List.nodup_singleton Address) (by simpa using hnew)
  · show (cache.Count + slabCount cache.Size) % 4294967296 = _
    rw [h.sum, List.length_append, List.length_singleton]
  · show long32 (cache.CurrentSlabs + 1) = _
    rw [h.currentSlabs, List.length_append, List.length_singleton, Nat.cast_succ]
    unfold long32
    omega
  · exact h.currentObjects
  · exact h.maximumObjects
  · rw [if_neg (by simp)]
    show 0 < max cache.MaximumSlabs (long32 (cache.CurrentSlabs + 1))
    have hmaximum := h.maximumSlabs
    split_ifs at hmaximum with hnil
    · subst hnil
      rw [h.currentSlabs]
      exact lt_max_of_lt_right (by decide)
    · exact lt_max_of_lt_left hmaximum
  · rw [createSlabBlocks, if_neg (Nat.not_lt.mpr hcap), if_neg hbytes]
    rfl

/-- **`CacheCreateSlab` fails**, and frees what it has allocated. -/
theorem notCreated (h : Filled Size Cap Addresses cache) (hcan : ¬ CanCreate Size Cap Addresses.length alloc)
    (live : List Block) : ∃ status, cacheCreateSlab cache alloc = (status, cache) ∧
      status.ntSuccess = false ∧ createSlabBlocks cache alloc live = some live := by
  rw [CanCreate, ← h.sum, ← h.cap, ← h.size] at hcan
  obtain ⟨hstatus, hcache⟩ := cacheCreateSlab_of_fails hcan
  refine ⟨_, Prod.ext rfl hcache, hstatus, ?_⟩
  rw [createSlabBlocks]
  by_cases hcap : (cache.Count + slabCount cache.Size) % 4294967296 > cache.Cap
  · exact if_pos hcap
  · rw [if_neg hcap]
    by_cases hbytes : slabBytes cache.Size = 0
    · rw [if_pos hbytes]
    · rw [if_neg hbytes]
      obtain ⟨Slab, Constructed, Allocated⟩ := alloc
      cases Slab with
      | none => rfl
      | some Address =>
        cases Constructed with
        | false => exact cacheFree_cons _ _
        | true =>
          cases Allocated with
          | false =>
            show (cacheFree _ _).bind _ = _
            rw [cacheFree_cons, Option.bind_some, cacheFree_cons]
          | true => exact absurd ⟨Nat.le_of_not_lt hcap, hbytes, Option.some_ne_none _, rfl, rfl⟩ hcan

/-- **`CacheFill`**: the slabs that have been created stay, whether it succeeds or not. -/
theorem fill (h : Filled Size Cap Addresses cache) {Reservation : ℕ}
    (hfresh : FillAll Cache.Fresh Reservation allocs cache) (live : List Block) :
    ∃ New status cache', cacheFill Reservation allocs cache = (status, cache') ∧
      fillBlocks Reservation allocs cache live = some (slabBlocks New live) ∧
      Filled Size Cap (Addresses ++ New) cache' ∧
      (status.ntSuccess = true ↔ Suffices Size Reservation Cap Addresses.length allocs) ∧
      (status.ntSuccess = true → Reservation ≤ cache'.Count) ∧
      (New = [] ↔ Reservation ≤ cache.Count ∨
        ∀ alloc ∈ allocs[0]?, ¬ CanCreate Size Cap Addresses.length alloc) := by
  induction allocs generalizing Addresses cache live with
  | nil =>
    have hcan : ¬ CanCreate Size Cap Addresses.length ⟨none, false, false⟩ := fun hcan => hcan.2.2.1 rfl
    obtain ⟨status, hcreate, hstatus, hblocks⟩ := h.notCreated hcan live
    rw [suffices_nil, ← h.count, cacheFill, fillBlocks]
    split_ifs with hlt
    · exact ⟨[], status, cache, hcreate, hblocks, by rwa [List.append_nil], by simpa [hstatus] using hlt,
        by simp [hstatus], by simp⟩
    · exact ⟨[], _, _, rfl, rfl, by rwa [List.append_nil], by simpa [Status.ntSuccess] using hlt,
        fun _ => Nat.le_of_not_lt hlt, by simp⟩
  | cons alloc allocs ih =>
    rw [suffices_cons, ← h.count, cacheFill, fillBlocks]
    split_ifs with hlt
    · obtain ⟨hfresh', hrest⟩ := hfresh hlt
      by_cases hcan : CanCreate Size Cap Addresses.length alloc
      · obtain ⟨Address, cache₁, hcreate, hfilled, hblocks⟩ := h.created hfresh' hcan live
        rw [hcreate] at hrest
        obtain ⟨New, status, cache', hfill, hblocks', hfilled', hstatus, hcount, -⟩ :=
          ih hfilled (hrest rfl) (slabBlocks [Address] live)
        rw [List.length_append, List.length_singleton] at hstatus
        refine ⟨Address :: New, status, cache', ?_, ?_, ?_, ?_, hcount, ?_⟩
        · rw [hcreate]
          exact hfill
        · rw [hblocks, Option.bind_some, hcreate]
          exact hblocks'
        · rwa [List.append_assoc, List.singleton_append] at hfilled'
        · rw [hstatus, or_iff_right (Nat.not_le.mpr hlt), and_iff_right hcan]
        · simp [hcan, hlt]
      · obtain ⟨status, hcreate, hstatus, hblocks⟩ := h.notCreated hcan live
        refine ⟨[], status, cache, ?_, ?_, by rwa [List.append_nil], by simp [hstatus, hcan, hlt],
          by simp [hstatus], by simp [hcan]⟩
        · rw [hcreate]
          cases status <;> first | rfl | cases hstatus
        · rw [hblocks, Option.bind_some, hcreate]
          cases status <;> first | rfl | cases hstatus
    · have hle := Nat.le_of_not_lt hlt
      exact ⟨[], _, _, rfl, rfl, by rwa [List.append_nil], by simp [Status.ntSuccess, hle], fun _ => hle,
        by simp [hle]⟩

end Filled

namespace Holding

variable {Size Cap : ℕ}

/-- **`CacheDestroySlab`** of the last slab frees its blocks. -/
theorem destroySlab {Address : ℕ} (h : Holding Size Cap (Addresses ++ [Address]) cache) (client : Client σ)
    (c : σ) (live : List Block) :
    Holding Size Cap Addresses (cacheDestroySlab client cache (newSlab Size Address) c).1 ∧
      destroySlabBlocks (newSlab Size Address) (slabBlocks (Addresses ++ [Address]) live) =
        some (slabBlocks Addresses live) := by
  have hlt := slabCount_lt Size
  have hlist := h.list
  rw [List.map_append, List.map_singleton] at hlist
  have hnodup : ((Addresses.map (newSlab Size) ++ [newSlab Size Address]).map Slab.Address).Nodup := by
    rw [← List.map_singleton, ← List.map_append, List.map_map]
    simpa [Function.comp_def, newSlab] using h.nodup
  refine ⟨⟨h.size, h.cap, ?_, ?_, ?_, ?_, h.currentObjects, h.maximumObjects⟩, ?_⟩
  · show KeyedList.unlink Slab.Address cache.SlabList (newSlab Size Address).Address = _
    rw [hlist, KeyedList.unlink_append hnodup, List.append_nil]
  · exact h.nodup.sublist (List.sublist_append_left _ _)
  · show ulongSub cache.Count (slabCount Size) = _
    have hcount := h.count
    rw [List.length_append, List.length_singleton, Nat.add_mul, Nat.one_mul] at hcount
    rw [hcount, ulongSub_add_mod hlt]
  · show long32 (cache.CurrentSlabs - 1) = _
    rw [h.currentSlabs, List.length_append, List.length_singleton, Nat.cast_succ]
    unfold long32
    omega
  · rw [slabBlocks_concat, destroySlabBlocks]
    show (cacheFree (.allocated Address) _).bind _ = _
    rw [cacheFree_cons, Option.bind_some]
    show (cacheFree (.constructed Address) _).bind (cacheFree (.slab Address)) = _
    rw [cacheFree_cons, Option.bind_some, cacheFree_cons]

/-- **The loop of `CacheSpill`** frees the blocks of all slabs. -/
theorem spillLoop (h : Holding Size Cap Addresses cache) (client : Client σ) (fuel : ℕ)
    (hfuel : Addresses.length ≤ fuel) (c : σ) (live : List Block) :
    ∃ cache' c', ObjectCache.spillLoop client 0 fuel cache c = (cache', c') ∧
      spillLoopBlocks client 0 fuel cache c (slabBlocks Addresses live) = some live ∧
      Holding Size Cap [] cache' ∧ cache'.MaximumSlabs = cache.MaximumSlabs := by
  induction fuel generalizing Addresses cache c with
  | zero =>
    obtain rfl := List.eq_nil_of_length_eq_zero (Nat.le_zero.mp hfuel)
    exact ⟨cache, c, rfl, rfl, h, rfl⟩
  | succ fuel ih =>
    obtain rfl | ⟨init, Address, rfl⟩ := List.eq_nil_or_concat Addresses
    · have hnone : cache.SlabList.getLast? = none := by rw [h.list]; rfl
      refine ⟨cache, c, ?_, ?_, h, rfl⟩
      · rw [ObjectCache.spillLoop, hnone]
      · rw [spillLoopBlocks, hnone]
        rfl
    · rw [List.concat_eq_append] at h hfuel ⊢
      have hlast : cache.SlabList.getLast? = some (newSlab Size Address) := by simp [h.list]
      obtain ⟨hdestroy, hblocks⟩ := h.destroySlab client c live
      rw [List.length_append, List.length_singleton] at hfuel
      obtain ⟨cache', c', hloop, hloop', hholding, hmaximum⟩ :=
        ih hdestroy (by omega) (cacheDestroySlab client cache (newSlab Size Address) c).2
      refine ⟨cache', c', ?_, ?_, hholding, hmaximum⟩
      · rw [ObjectCache.spillLoop, hlast]
        exact hloop
      · rw [spillLoopBlocks, hlast]
        show (destroySlabBlocks _ _).bind _ = _
        rw [hblocks, Option.bind_some]
        exact hloop'

end Holding

/-! ## The call -/

variable {Name : List ℕ} {Size Reservation Cap : ℕ} {outcome : Allocations} {list : List (Cache n)}
  {status : Status} {record : Record n}

/-- The record is freed, and the blocks of slabs stay. -/
theorem cacheFree_record (Addresses : List ℕ) :
    cacheFree .record (slabBlocks Addresses [.record]) = some (slabBlocks Addresses []) := by
  have hrecord : .record ∈ slabBlocks Addresses [.record] ∧
      (slabBlocks Addresses [.record]).erase .record = slabBlocks Addresses [] := by
    induction Addresses using List.reverseRecOn with
    | nil => exact ⟨List.mem_cons_self, rfl⟩
    | append_singleton init Address ih =>
      rw [slabBlocks_concat, slabBlocks_concat]
      refine ⟨by simp [ih.1], ?_⟩
      rw [List.erase_cons_tail (by simp), List.erase_cons_tail (by simp), List.erase_cons_tail (by simp),
        ih.2]
  rw [cacheFree, if_pos hrecord.1, hrecord.2]

theorem slabBlocks_eq_nil_iff : slabBlocks Addresses [] = [] ↔ Addresses = [] := by
  obtain rfl | ⟨init, Address, rfl⟩ := List.eq_nil_or_concat Addresses
  · simp [slabBlocks]
  · rw [List.concat_eq_append, slabBlocks_concat]
    simp

/-- The record is zero when it is freed if and only if no slab has been created. -/
theorem Holding.isZero_iff (h : Holding Size Cap Addresses cache) :
    (⟨[], false, 0, { cache with Cursor := none, Cap := 0, Reservation := 0, Size := 0 }⟩ : Record n).IsZero ↔
      Addresses = [] ∧ cache.MaximumSlabs = 0 := by
  have hlist : cache.SlabList = [] ↔ Addresses = [] := by rw [h.list, List.map_eq_nil_iff]
  simp only [Record.IsZero, Cache.IsZero, hlist, true_and, h.currentObjects, h.maximumObjects, and_true]
  constructor
  · exact fun hzero => ⟨hzero.1, hzero.2.2.2⟩
  · rintro ⟨rfl, hmaximum⟩
    exact ⟨rfl, by simp [h.count], by simp [h.currentSlabs, long32], hmaximum⟩

theorem createFail3_eq (Addresses : List ℕ) :
    createFail3 status ⟨Name, true, 0, cache⟩ list (slabBlocks Addresses [.record]) c =
      some ⟨status, none, list, slabBlocks Addresses [],
        some ⟨[], false, 0, { cache with Cursor := none, Cap := 0, Reservation := 0, Size := 0 }⟩, c⟩ := by
  rw [createFail3, createFail2, cacheFree_record]
  rfl

/-- **From `fail3` on**, all that is left are the slabs of the cache and the counts. -/
theorem createFail3_promise (h : Holding Size Cap Addresses cache) (hstatus : status.ntSuccess = false) :
    (∃ result, createFail3 status ⟨Name, true, 0, cache⟩ list (slabBlocks Addresses [.record]) c =
      some result ∧ Promise list Reservation result) ↔ Addresses = [] ∧ cache.MaximumSlabs = 0 := by
  rw [← h.isZero_iff, createFail3_eq]
  constructor
  · rintro ⟨_, ⟨⟩, hpromise, -⟩
    exact (hpromise hstatus).freed _ rfl
  · intro hzero
    refine ⟨_, rfl, fun _ => ⟨rfl, rfl, ?_, fun record hrecord => ?_⟩, fun htrue => ?_⟩
    · exact slabBlocks_eq_nil_iff.mpr (h.isZero_iff.mp hzero).1
    · exact Option.some.inj hrecord ▸ hzero
    · exact absurd (hstatus.symm.trans htrue) Bool.false_ne_true

/-- `CacheSpill` frees the blocks of all slabs, if there is a count. -/
theorem Filled.spill (h : Filled Size Cap Addresses cache) (hpos : Addresses = [] ∨ 0 < cache.Count)
    (client : Client σ) (c : σ) (live : List Block) :
    spillBlocks client 0 cache c (slabBlocks Addresses live) = some live ∧
      Holding Size Cap [] (cacheSpill client 0 cache c).1 ∧
      (cacheSpill client 0 cache c).1.MaximumSlabs = cache.MaximumSlabs := by
  rw [spillBlocks, cacheSpill]
  rcases hpos with rfl | hpos
  · have hzero : cache.Count ≤ 0 := by simp [h.count]
    rw [if_pos hzero, if_pos hzero]
    exact ⟨rfl, h.toHolding, rfl⟩
  · have hnot : ¬ cache.Count ≤ 0 := Nat.not_le.mpr hpos
    have hlength : cache.SlabList.length = Addresses.length := by rw [h.list, List.length_map]
    obtain ⟨cache', c', hloop, hblocks, hholding, hsame⟩ :=
      h.spillLoop client cache.SlabList.length hlength.ge c live
    rw [if_neg hnot, if_neg hnot, hloop]
    exact ⟨hblocks, hholding, hsame⟩

/-- **From `fail5` on**: `CacheSpill` destroys all slabs, and `MaximumSlabs` stays. -/
theorem createFail5_promise (client : Client σ) (h : Filled Size Cap Addresses cache)
    (hpos : Addresses = [] ∨ 0 < cache.Count) (hstatus : status.ntSuccess = false) (m : ℕ) :
    (∃ result, createFail5 client status ⟨Name, true, m, cache⟩ list (slabBlocks Addresses [.record]) c =
      some result ∧ Promise list Reservation result) ↔ Addresses = [] := by
  obtain ⟨hblocks, hholding, hsame⟩ := h.spill hpos client c [.record]
  have hmaximum := h.maximumSlabs
  rw [createFail5, hblocks, Option.bind_some]
  refine (createFail3_promise hholding hstatus).trans ?_
  rw [hsame]
  split_ifs at hmaximum with hnil
  · exact iff_of_true ⟨rfl, hmaximum⟩ hnil
  · exact iff_of_false (fun hzero => hmaximum.ne' hzero.2) hnil

/-- After `CacheFill`. -/
theorem filled_promise (client : Client σ) (h : Filled Size Cap Addresses cache)
    (hcount : status.ntSuccess = true → Reservation ≤ cache.Count) (hpos : Addresses ≠ [] → 0 < Reservation)
    (Magazine : Bool) (m : ℕ) :
    (∃ result, (if (!status.ntSuccess) = true then
        createFail3 status ⟨Name, true, 0, cache⟩ list (slabBlocks Addresses [.record]) c
      else if (!Magazine) = true then
        createFail5 client .noMemory ⟨Name, true, m, cache⟩ list (slabBlocks Addresses [.record]) c
      else
        some ⟨.success, some cache, list ++ [cache], .magazines :: slabBlocks Addresses [.record], none, c⟩) =
          some result ∧ Promise list Reservation result) ↔
      Addresses = [] ∨ status.ntSuccess = true ∧ Magazine = true := by
  cases hstatus : status.ntSuccess with
  | false =>
    have hmaximum := h.maximumSlabs
    simp only [Bool.not_false, if_true, Bool.false_eq_true, false_and, or_false]
    rw [createFail3_promise h.toHolding hstatus]
    refine and_iff_left_of_imp fun hnil => ?_
    rwa [if_pos hnil] at hmaximum
  | true =>
    simp only [Bool.not_true, Bool.false_eq_true, if_false, true_and]
    cases Magazine with
    | false =>
      have hcount' : Addresses = [] ∨ 0 < cache.Count :=
        (em _).imp_right fun hne => (hpos hne).trans_le (hcount hstatus)
      simp only [Bool.not_false, if_true, Bool.false_eq_true, or_false]
      exact createFail5_promise client h hcount' rfl m
    | true =>
      simp only [Bool.not_true, Bool.false_eq_true, if_false, or_true, iff_true]
      refine ⟨_, rfl, fun hfalse => ?_, fun _ _ => ⟨cache, rfl, hcount hstatus⟩⟩
      exact absurd hfalse.symm Bool.false_ne_true

/-- **No block is freed twice**, and the status, the cache and the client's state are those of
`cacheCreate`. -/
theorem cacheCreateTraced_spec (client : Client σ) (n : ℕ) (Name : List ℕ) (Size Reservation Cap : ℕ)
    (outcome : Allocations) (list : List (Cache n)) (c : σ)
    (hfresh : FillAll Cache.Fresh Reservation outcome.Slabs (newCache n Size Reservation Cap)) :
    ∃ result, cacheCreateTraced client n Name Size Reservation Cap outcome list c = some result ∧
      cacheCreate client n Size Reservation Cap
        ⟨outcome.Cache, decide (Name.length < MAXNAMELEN), outcome.Slabs, outcome.Magazine⟩ c =
        (result.status, result.cache, result.client) := by
  rw [cacheCreateTraced, cacheCreate]
  cases hcache : outcome.Cache with
  | false => exact ⟨_, rfl, rfl⟩
  | true =>
    simp only [Bool.not_true, Bool.false_eq_true, if_false]
    by_cases hname : MAXNAMELEN ≤ Name.length
    · rw [if_pos hname, createFail2, cacheFree_cons, decide_eq_false (Nat.not_lt.mpr hname)]
      exact ⟨_, rfl, rfl⟩
    · rw [if_neg hname, decide_eq_true (Nat.lt_of_not_le hname)]
      simp only [Bool.not_true, Bool.false_eq_true, if_false]
      by_cases hcap : (newCache n Size Reservation Cap).Reservation > (newCache n Size Reservation Cap).Cap
      · rw [if_pos hcap, if_pos hcap]
        exact ⟨_, createFail3_eq [], rfl⟩
      · obtain ⟨New, status, cache, hfill, hblocks, hfilled, -, hcount, hnone⟩ :=
          (filled_new n Size Reservation Cap).fill hfresh [.record]
        rw [if_neg hcap, if_neg hcap,
          show (newCache n Size Reservation Cap).Reservation = Reservation from rfl, hblocks, Option.bind_some,
          hfill]
        cases hstatus : status.ntSuccess with
        | false =>
          refine ⟨_, createFail3_eq New, ?_⟩
          cases status <;> first | rfl | cases hstatus
        | true =>
          obtain rfl : status = .success := by cases status <;> first | rfl | cases hstatus
          cases outcome.Magazine with
          | true => exact ⟨_, rfl, rfl⟩
          | false =>
            have hpos : New = [] ∨ 0 < cache.Count := (em _).imp_right fun hne => by
              have hlt : ¬ Reservation ≤ 0 := fun hle => hne (hnone.mpr (.inl hle))
              exact (Nat.lt_of_not_le hlt).trans_le (hcount rfl)
            obtain ⟨hspill, -, -⟩ := hfilled.spill hpos client c [.record]
            simp only [Bool.not_true, Bool.false_eq_true, if_false, Bool.not_false, if_true]
            rw [List.nil_append] at hspill
            rw [createFail5, hspill, Option.bind_some]
            exact ⟨_, createFail3_eq [], rfl⟩

/-- Memory for one slab. -/
def oneSlab : Allocations := ⟨true, [page 4096, ⟨none, true, true⟩], true⟩

end XenBus.ObjectCache
