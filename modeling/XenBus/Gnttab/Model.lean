import Mathlib.Logic.Function.Basic
import XenBus.ObjectCache.Calls
import XenBus.RangeSet.Refinement

/-!
# The grant table

`gnttab.c`: grant references come from a range set, which `GnttabExpand` refills with the references of
one more frame of the table. A grant entry is an object of a cache, one for each client; its constructor
takes a reference out of the range set, and its destructor puts it back. `GnttabPermitForeignAccess`
writes the entry of the table that the reference stands for, `GnttabRevokeForeignAccess` clears it.

The outcomes of the calls into the hypervisor, of the allocations and of the backend's accesses are
arguments; those of the expansions are a sequence in the context (`Outcome`), of which each expansion
takes the next. `Frame->Entry` is the content of the frame. A function that follows an invalid pointer
sets `fault`.
-/

namespace XenBus.Gnttab

open MachineInt ObjectCache RangeSet

/-! ## Data -/

/-- `XENBUS_GNTTAB_ENTRY_PER_FRAME`. -/
def entryPerFrame : ℕ := 512

/-- `XENBUS_GNTTAB_RESERVED_ENTRY_COUNT`. -/
def reservedEntryCount : ℕ := 32

/-- `sizeof (XENBUS_GNTTAB_ENTRY)`. -/
def entrySize : ℕ := 16

/-- `grant_entry_v1_t`. -/
structure GrantEntry where
  flags : ℕ
  domid : ℕ
  frame : ℕ
  deriving DecidableEq

/-- An entry of zeros. -/
def GrantEntry.zero : GrantEntry := ⟨0, 0, 0⟩

/-- `XENBUS_GNTTAB_ENTRY`, without its magic number; `grant` is its `Entry`. -/
structure Entry where
  Reference : ℕ
  grant : GrantEntry
  deriving DecidableEq

/-- `XENBUS_GNTTAB_FRAME`: the page of the hole, and what is in the frame. -/
structure Frame where
  Mdl : Option ℕ
  Entry : ℕ → GrantEntry

/-- What happens to a call of `GnttabExpand`. -/
structure ExpandOutcome where
  /-- `FdoHoleAllocate`. -/
  Mdl : Option ℕ
  /-- `MemoryAddToPhysmap`. -/
  AddToPhysmap : Status
  /-- The allocation of a range. -/
  Put : Bool

/-- `XENBUS_GNTTAB_CONTEXT`, with the memory of the cache objects. -/
structure Context where
  MaximumFrameCount : ℕ
  FrameIndex : ℤ
  Frame : ℕ → Frame
  RangeSet : RangeSet
  Object : ℕ → Entry
  Outcome : ℕ → ExpandOutcome
  fault : Bool

/-- The context when the interface has been acquired for the first time. -/
def initContext (MaximumFrameCount : ℕ) (Frame : ℕ → Frame) (Object : ℕ → Entry)
    (Outcome : ℕ → ExpandOutcome) : Context where
  MaximumFrameCount := MaximumFrameCount
  FrameIndex := -1
  Frame := Frame
  RangeSet := rangeSetCreate
  Object := Object
  Outcome := Outcome
  fault := false

/-! ## References -/

/-- `Start` in `GnttabExpand`. -/
def frameStart (Index : ℕ) : ℕ := max reservedEntryCount (Index * entryPerFrame)

/-- `End + 1` in `GnttabExpand`. -/
def frameEnd (Index : ℕ) : ℕ := (Index + 1) * entryPerFrame

/-- `GnttabExpand`. -/
def gnttabExpand (ctx : Context) : Status × Context :=
  let outcome := ctx.Outcome 0
  let FrameIndex := long32 (ctx.FrameIndex + 1)
  let Index := (FrameIndex % 4294967296).toNat
  let ctx := { ctx with Outcome := fun k => ctx.Outcome (k + 1) }
  let failed := { ctx with FrameIndex := long32 (FrameIndex - 1) }
  if Index = ctx.MaximumFrameCount then (.insufficientResources, failed)
  else
    let failed := { failed with
      Frame := Function.update ctx.Frame Index { ctx.Frame Index with Mdl := none } }
    match outcome.Mdl with
    | none => (.noMemory, failed)
    | some Pfn =>
      if outcome.AddToPhysmap.ntSuccess then
        match rangeSetPut ctx.RangeSet (frameStart Index) (frameEnd Index - frameStart Index)
            outcome.Put with
        | none => (.unsuccessful, { failed with fault := true })
        | some (status, rs) =>
          if status.ntSuccess then
            (status, { ctx with
              FrameIndex := FrameIndex
              Frame := Function.update ctx.Frame Index { ctx.Frame Index with Mdl := some Pfn }
              RangeSet := rs })
          else (status, { failed with RangeSet := rs })
      else (outcome.AddToPhysmap, failed)

/-- `GnttabEntryCtor`, for `fuel` times round the loop. -/
def entryCtorLoop (Object : ℕ) : ℕ → Context → Status × Context
  | 0, ctx => (.unsuccessful, { ctx with fault := true })
  | fuel + 1, ctx =>
    match rangeSetPop ctx.RangeSet 1 with
    | (.success, some Reference, rs) =>
      (.success, { ctx with
        RangeSet := rs
        Object := Function.update ctx.Object Object
          { ctx.Object Object with Reference := (Reference % 4294967296).toNat } })
    | _ =>
      let (status, ctx') := gnttabExpand ctx
      if status.ntSuccess then entryCtorLoop Object fuel ctx' else (status, ctx')

/-- `GnttabEntryCtor`. After an expansion the set has a reference, so the loop ends the second time. -/
def gnttabEntryCtor (Object : ℕ) (ctx : Context) : Status × Context := entryCtorLoop Object 2 ctx

/-- `GnttabEntryDtor`. The allocation in `RangeSetPut` succeeds. -/
def gnttabEntryDtor (Object : ℕ) (ctx : Context) : Context :=
  match rangeSetPut ctx.RangeSet (ctx.Object Object).Reference 1 true with
  | some (_, rs) => { ctx with RangeSet := rs }
  | none => { ctx with fault := true }

/-- The entries as objects of a cache. -/
def client : Client Context := ⟨gnttabEntryCtor, gnttabEntryDtor⟩

/-! ## The interface -/

/-- `GTF_permit_access`, `GTF_readonly`, `GTF_reading` and `GTF_writing`. -/
def gtfPermitAccess : ℕ := 1

@[inherit_doc gtfPermitAccess]
def gtfReadonly : ℕ := 4

@[inherit_doc gtfPermitAccess]
def gtfReading : ℕ := 8

@[inherit_doc gtfPermitAccess]
def gtfWriting : ℕ := 16

/-- The bits of a 16-bit word without those of `mask`. -/
def clearBits (flags mask : ℕ) : ℕ := flags &&& (65535 ^^^ mask)

/-- One entry of the table. -/
def Context.setGrant (ctx : Context) (Reference : ℕ) (entry : GrantEntry) : Context :=
  let Index := Reference / entryPerFrame
  { ctx with
    Frame := Function.update ctx.Frame Index { ctx.Frame Index with
      Entry := Function.update (ctx.Frame Index).Entry (Reference % entryPerFrame) entry } }

/-- One entry of the table. -/
def Context.grant (ctx : Context) (Reference : ℕ) : GrantEntry :=
  (ctx.Frame (Reference / entryPerFrame)).Entry (Reference % entryPerFrame)

/-- `GnttabPermitForeignAccess` with an entry from the cache. -/
def permitEntry (ctx : Context) (Object Domain Pfn : ℕ) (ReadOnly : Bool) : Context :=
  let Reference := (ctx.Object Object).Reference
  let entry : GrantEntry := ⟨if ReadOnly then gtfReadonly else 0, Domain, Pfn % 4294967296⟩
  let ctx := { ctx with Object := Function.update ctx.Object Object ⟨Reference, entry⟩ }
  (ctx.setGrant Reference entry).setGrant Reference
    { entry with flags := entry.flags ||| gtfPermitAccess }

/-- `GnttabPermitForeignAccess`: `*Entry`, the cache and the context. -/
def gnttabPermitForeignAccess {n : ℕ} (cache : Cache n) (cpu : Fin n) (alloc : SlabAlloc)
    (Domain Pfn : ℕ) (ReadOnly : Bool) (ctx : Context) : Option ℕ × Cache n × Context :=
  match cacheGet client cache cpu alloc ctx with
  | (none, cache', ctx') => (none, cache', ctx')
  | (some Object, cache', ctx') => (some Object, cache', permitEntry ctx' Object Domain Pfn ReadOnly)

/-- The loop of `GnttabRevokeForeignAccess`, from `Attempt` on: `Attempt` after it, and the flags that
were written, if any. `reads` are the flags that the attempts find, each when it reads them and when it
exchanges them. -/
def revokeLoop : ℕ → List (ℕ × ℕ) → ℕ × Option ℕ
  | Attempt, [] => (Attempt + 1, none)
  | Attempt, (read, exchange) :: reads =>
    let Old := clearBits read (gtfReading ||| gtfWriting)
    if exchange = Old then (Attempt + 1, some (clearBits Old gtfPermitAccess))
    else revokeLoop (Attempt + 1) reads

/-- `GnttabRevokeForeignAccess` after the loop. -/
def revokeDone {n : ℕ} (cache : Cache n) (cpu : Fin n) (Object Attempt : ℕ) (ctx : Context) :
    Option (Status × Cache n × Context) :=
  if Attempt = 100 then some (.unsuccessful, cache, ctx)
  else
    let Reference := (ctx.Object Object).Reference
    let ctx := ctx.setGrant Reference .zero
    let ctx := { ctx with Object := Function.update ctx.Object Object ⟨Reference, .zero⟩ }
    (cachePut cache cpu Object).map fun cache' => (.success, cache', ctx)

/-- `GnttabRevokeForeignAccess`: the status, and the cache and the context after it, or a fault. The loop
makes at most 100 attempts. -/
def gnttabRevokeForeignAccess {n : ℕ} (cache : Cache n) (cpu : Fin n) (Object : ℕ)
    (reads : Fin 100 → ℕ × ℕ) (ctx : Context) : Option (Status × Cache n × Context) :=
  let Reference := (ctx.Object Object).Reference
  match revokeLoop 0 (List.ofFn reads) with
  | (Attempt, some New) =>
    revokeDone cache cpu Object Attempt
      (ctx.setGrant Reference { ctx.grant Reference with flags := New })
  | (Attempt, none) => revokeDone cache cpu Object Attempt ctx

/-- `GnttabCreateCache`, with the outcomes of its own allocation and of the formatting of its name. -/
def gnttabCreateCache (n Reservation Cap : ℕ) (allocate name : Bool) (outcome : CreateOutcome)
    (ctx : Context) : Status × Option (Cache n) × Context :=
  if !allocate then (.noMemory, none, ctx)
  else if !name then (.unsuccessful, none, ctx)
  else cacheCreate client n entrySize Reservation Cap outcome ctx

end XenBus.Gnttab
