import Mathlib.Data.Finset.Basic
import XenBus.Foundations.KeyedList
import XenBus.Foundations.MachineInt
import XenBus.Status

/-!
# The object cache

`cache.c`: a slab allocator with a magazine of free objects for each CPU. A slab is a block of pages
that starts with its header and holds `Count` objects; its masks say which of them have been
constructed and which are allocated. The slabs are in a list, in the order of their allocated counts,
and `Cursor` points at the first that is not full.

Addresses are numbers, a slab is known by its address, and pointers into `SlabList` are addresses of
slabs, with `none` for the list head. The bits of a mask are a finite set. The offsets are those of the
64-bit build; `ULONG` and `LONG` wrap as they do in C. The outcome of an allocation is an argument
(`none` or `false`: it returns `NULL`). Assertions are those of the free build, that is, none; a
function that follows a pointer to something that is not a slab has no result.

The constructor and destructor of the client act on a state `σ` of its own.
-/

namespace XenBus.ObjectCache

open MachineInt

/-! ## Sizes -/

/-- `P2ROUNDUP(ULONG, x, a)`. -/
def p2RoundUp (x a : ℕ) : ℕ := (x + (a - 1)) / a * a % 4294967296

/-- `FIELD_OFFSET(XENBUS_CACHE_SLAB, Buffer)`. -/
def bufferOffset : ℕ := 48

/-- `PAGE_ALIGN`. -/
def pageAlign (a : ℕ) : ℕ := a / 4096 * 4096

/-- The size of a slab: `NumberOfBytes` in `CacheCreateSlab`. -/
def slabBytes (Size : ℕ) : ℕ := p2RoundUp ((bufferOffset + Size) % 4294967296) 4096

/-- The objects of a slab: `Count` in `CacheCreateSlab`. A `Size` that `CacheCreate` has rounded to 0,
by which the code divides, gives 0 here. -/
def slabCount (Size : ℕ) : ℕ := ulongSub (slabBytes Size) bufferOffset / Size

/-! ## Masks -/

/-- `XENBUS_CACHE_MASK`. -/
structure Mask where
  Size : ℕ
  Count : ℕ
  Bits : Finset ℕ
  deriving DecidableEq

/-- `CacheMaskCreate`. -/
def cacheMaskCreate (Size : ℕ) (allocate : Bool) : Option Mask :=
  if allocate then some ⟨Size, 0, ∅⟩ else none

/-- `__CacheMaskSet`. -/
def cacheMaskSet (mask : Mask) (Bit : ℕ) : Mask :=
  { mask with Bits := insert Bit mask.Bits, Count := (mask.Count + 1) % 4294967296 }

/-- `__CacheMaskTest`. -/
def cacheMaskTest (mask : Mask) (Bit : ℕ) : Bool := decide (Bit ∈ mask.Bits)

/-- `__CacheMaskClear`. -/
def cacheMaskClear (mask : Mask) (Bit : ℕ) : Mask :=
  { mask with Bits := mask.Bits.erase Bit, Count := ulongSub mask.Count 1 }

@[simp] theorem cacheMaskSet_size (m : Mask) (i : ℕ) : (cacheMaskSet m i).Size = m.Size := by
  simp [cacheMaskSet]

@[simp] theorem cacheMaskSet_bits (m : Mask) (i : ℕ) :
    (cacheMaskSet m i).Bits = insert i m.Bits := by
  simp [cacheMaskSet]

@[simp] theorem cacheMaskClear_size (m : Mask) (i : ℕ) : (cacheMaskClear m i).Size = m.Size := by
  simp [cacheMaskClear]

@[simp] theorem cacheMaskClear_bits (m : Mask) (i : ℕ) :
    (cacheMaskClear m i).Bits = m.Bits.erase i := by
  simp [cacheMaskClear]

/-! ## Magazines -/

/-- `XENBUS_CACHE_MAGAZINE`: the objects in its slots. -/
abbrev Magazine := List (Option ℕ)

/-- A magazine of `XENBUS_CACHE_MAGAZINE_SLOTS` empty slots. -/
def Magazine.empty : Magazine := List.replicate 6 none

/-- `CacheGetObjectFromMagazine`. -/
def cacheGetObjectFromMagazine : Magazine → Option ℕ × Magazine
  | [] => (none, [])
  | some Object :: slots => (some Object, none :: slots)
  | none :: slots =>
    let (Object, slots') := cacheGetObjectFromMagazine slots
    (Object, none :: slots')

/-- `CachePutObjectToMagazine`; `none` is `STATUS_UNSUCCESSFUL`. -/
def cachePutObjectToMagazine (Object : ℕ) : Magazine → Option Magazine
  | [] => none
  | none :: slots => some (some Object :: slots)
  | some x :: slots => (cachePutObjectToMagazine Object slots).map (some x :: ·)

/-! ## Slabs and caches -/

/-- `XENBUS_CACHE_SLAB`. -/
structure Slab where
  Address : ℕ
  Constructed : Mask
  Allocated : Mask
  deriving DecidableEq

/-- The address of an object: `&Slab->Buffer[Index * Cache->Size]`. -/
def Slab.object (slab : Slab) (Size Index : ℕ) : ℕ := slab.Address + bufferOffset + Index * Size

/-- No object of the slab is free. -/
def Slab.full (slab : Slab) : Bool := decide (slab.Allocated.Count = slab.Allocated.Size)

/-- `XENBUS_CACHE`, without its name and callbacks: `n` is its `MagazineCount`. -/
structure Cache (n : ℕ) where
  Size : ℕ
  Reservation : ℕ
  Cap : ℕ
  SlabList : List Slab
  Cursor : Option ℕ
  Count : ℕ
  Magazine : Fin n → Magazine
  CurrentSlabs : ℤ
  MaximumSlabs : ℤ
  CurrentObjects : ℤ
  MaximumObjects : ℤ

/-- `Ctor` and `Dtor`. -/
structure Client (σ : Type*) where
  Ctor : ℕ → σ → Status × σ
  Dtor : ℕ → σ → σ

variable {n : ℕ} {σ : Type*}

/-- The walk of `CacheInsertSlab`, with `Cache->Cursor`: `none` is `NULL`. -/
def insertWalk (New : Slab) : Option ℕ → List Slab → List Slab × Option ℕ
  | Cursor, [] => ([New], Cursor.or (some New.Address))
  | Cursor, slab :: list =>
    if slab.Allocated.Count < New.Allocated.Count then
      (New :: slab :: list, Cursor.or (some New.Address))
    else
      let Cursor' := if slab.Allocated.Count < slab.Allocated.Size ∧ Cursor = none then
        some slab.Address else Cursor
      let (list', Cursor'') := insertWalk New Cursor' list
      (slab :: list', Cursor'')

/-- `CacheInsertSlab`. -/
def cacheInsertSlab (cache : Cache n) (New : Slab) : Cache n :=
  let (list, Cursor) := insertWalk New none cache.SlabList
  { cache with SlabList := list, Cursor := Cursor }

/-- The outcomes of the allocations in `CacheCreateSlab`: the slab and the two masks. -/
structure SlabAlloc where
  Slab : Option ℕ
  Constructed : Bool
  Allocated : Bool
  deriving DecidableEq

/-- `CacheCreateSlab`. An allocation of 0 bytes returns `NULL`. -/
def cacheCreateSlab (cache : Cache n) (alloc : SlabAlloc) : Status × Cache n :=
  let Count := slabCount cache.Size
  if (cache.Count + Count) % 4294967296 > cache.Cap then (.insufficientResources, cache)
  else
    match (if slabBytes cache.Size = 0 then none else alloc.Slab) with
    | none => (.noMemory, cache)
    | some Address =>
      match cacheMaskCreate Count alloc.Constructed with
      | none => (.noMemory, cache)
      | some Constructed =>
        match cacheMaskCreate Count alloc.Allocated with
        | none => (.noMemory, cache)
        | some Allocated =>
          let cache' := cacheInsertSlab cache ⟨Address, Constructed, Allocated⟩
          let SlabCount := long32 (cache.CurrentSlabs + 1)
          (.success, { cache' with
            Count := (cache.Count + Count) % 4294967296
            CurrentSlabs := SlabCount
            MaximumSlabs := max cache.MaximumSlabs SlabCount })

/-- The loop of `CacheDestroySlab`, from `Index` down. -/
def destroyObjects (client : Client σ) (Size : ℕ) (slab : Slab) : ℕ → Mask → σ → Mask × σ
  | 0, Constructed, s => (Constructed, s)
  | Index + 1, Constructed, s =>
    if cacheMaskTest Constructed Index then
      destroyObjects client Size slab Index (cacheMaskClear Constructed Index)
        (client.Dtor (slab.object Size Index) s)
    else destroyObjects client Size slab Index Constructed s

/-- `CacheDestroySlab`. -/
def cacheDestroySlab (client : Client σ) (cache : Cache n) (slab : Slab) (s : σ) : Cache n × σ :=
  ({ cache with
      Count := ulongSub cache.Count slab.Allocated.Size
      Cursor := if cache.Cursor = some slab.Address then
        KeyedList.next Slab.Address cache.SlabList slab.Address else cache.Cursor
      SlabList := KeyedList.unlink Slab.Address cache.SlabList slab.Address
      CurrentSlabs := long32 (cache.CurrentSlabs - 1) },
    (destroyObjects client cache.Size slab slab.Constructed.Size slab.Constructed s).2)

/-- The search of `CacheGetObjectFromSlab`, for `fuel` bits from `Index` on. -/
def findFree (Allocated : Mask) : ℕ → ℕ → ℕ
  | 0, Index => Index
  | fuel + 1, Index =>
    if cacheMaskTest Allocated Index then findFree Allocated fuel (Index + 1) else Index

/-- The `Index` that `CacheGetObjectFromSlab` takes. -/
def freeIndex (slab : Slab) : ℕ :=
  let Index := if slab.Allocated.Count < slab.Constructed.Count then 0 else slab.Constructed.Count
  findFree slab.Allocated (slab.Allocated.Size - Index) Index

/-- `CacheGetObjectFromSlab`, with the slab after it. -/
def cacheGetObjectFromSlab (client : Client σ) (Size : ℕ) (slab : Slab) (s : σ) :
    Option ℕ × Slab × σ :=
  if slab.full then (none, slab, s)
  else
    let Index := freeIndex slab
    let Object := slab.object Size Index
    let slab' := { slab with Allocated := cacheMaskSet slab.Allocated Index }
    if cacheMaskTest slab.Constructed Index then (some Object, slab', s)
    else
      let (status, s') := client.Ctor Object s
      if status.ntSuccess then
        (some Object, { slab' with Constructed := cacheMaskSet slab.Constructed Index }, s')
      else (none, slab, s')

/-- `CacheGet` with the lock held and `Cursor` at a slab. -/
def getFromCursor (client : Client σ) (cache : Cache n) (Cursor : ℕ) (s : σ) :
    Option ℕ × Cache n × σ :=
  match KeyedList.lookup Slab.Address cache.SlabList Cursor with
  | none => (none, cache, s)
  | some slab =>
    let (Object, slab', s') := cacheGetObjectFromSlab client cache.Size slab s
    let list := KeyedList.replace Slab.Address cache.SlabList slab'
    (Object,
      { cache with
        SlabList := list
        Cursor := if slab'.full then KeyedList.next Slab.Address list slab'.Address
          else cache.Cursor }, s')

/-- `CacheGet` with the lock held. A slab that is created becomes the cursor. -/
def cacheGetLocked (client : Client σ) (cache : Cache n) (alloc : SlabAlloc) (s : σ) :
    Option ℕ × Cache n × σ :=
  match cache.Cursor with
  | some Cursor => getFromCursor client cache Cursor s
  | none =>
    match cacheCreateSlab cache alloc with
    | (.success, cache') =>
      match cache'.Cursor with
      | some Cursor => getFromCursor client cache' Cursor s
      | none => (none, cache', s)
    | (_, cache') => (none, cache', s)

/-- `CachePutObjectToSlab`: `none` is `BUG_ON`. -/
def cachePutObjectToSlab (Size : ℕ) (slab : Slab) (Object : ℕ) : Option Slab :=
  let Index := ulongSub (Object - slab.Address) bufferOffset / Size
  if Index ≥ slab.Allocated.Size then none
  else some { slab with Allocated := cacheMaskClear slab.Allocated Index }

/-- `CachePut` with the lock held. -/
def cachePutLocked (cache : Cache n) (Object : ℕ) : Option (Cache n) := do
  let slab ← KeyedList.lookup Slab.Address cache.SlabList (pageAlign Object)
  let slab' ← cachePutObjectToSlab cache.Size slab Object
  return cacheInsertSlab
    { cache with SlabList := KeyedList.unlink Slab.Address cache.SlabList slab.Address } slab'

/-- `CacheFill`, with the outcomes of its slab allocations; when they are used up the next fails. -/
def cacheFill (Count : ℕ) : List SlabAlloc → Cache n → Status × Cache n
  | [], cache =>
    if cache.Count < Count then cacheCreateSlab cache ⟨none, false, false⟩ else (.success, cache)
  | alloc :: allocs, cache =>
    if cache.Count < Count then
      match cacheCreateSlab cache alloc with
      | (.success, cache') => cacheFill Count allocs cache'
      | failed => failed
    else (.success, cache)

/-- The loop of `CacheSpill`, for `fuel` slabs. -/
def spillLoop (client : Client σ) (Count : ℕ) : ℕ → Cache n → σ → Cache n × σ
  | 0, cache, s => (cache, s)
  | fuel + 1, cache, s =>
    match cache.SlabList.getLast? with
    | none => (cache, s)
    | some slab =>
      if slab.Allocated.Count ≠ 0 then (cache, s)
      else if ulongSub cache.Count slab.Allocated.Size < Count then (cache, s)
      else
        let (cache', s') := cacheDestroySlab client cache slab s
        spillLoop client Count fuel cache' s'

/-- `CacheSpill`. -/
def cacheSpill (client : Client σ) (Count : ℕ) (cache : Cache n) (s : σ) : Cache n × σ :=
  if cache.Count ≤ Count then (cache, s)
  else spillLoop client Count cache.SlabList.length cache s

/-- `CacheCreate`, before it fills the cache. -/
def newCache (n Size Reservation Cap : ℕ) : Cache n where
  Size := p2RoundUp Size 8
  Reservation := Reservation
  Cap := if Cap = 0 then 4294967295 else Cap
  SlabList := []
  Cursor := none
  Count := 0
  Magazine _ := Magazine.empty
  CurrentSlabs := 0
  MaximumSlabs := 0
  CurrentObjects := 0
  MaximumObjects := 0

end XenBus.ObjectCache
