import Mathlib.Data.Multiset.AddSub
import XenBus.Balloon.PfnArray
import XenBus.Foundations.MachineInt
import XenBus.Foundations.Transition

/-!
# The balloon

`balloon.c`: `BalloonAdjust` moves `Context->Size` to a target, by calls of `BalloonInflate` or
`BalloonDeflate`, each of which works in batches over the scratch array. The outcomes of what they call
are arguments: the pages that `MmAllocatePagesForMdlEx` returns, at which index a range-set `Put` fails in
`BalloonReleasePfnArray`, which item each `Pop` takes, and how much of the array a hypercall processes
(`none`: it fails). A list of outcomes that is not possible, or that ends before the loop, has no result.

The range set is known by its interface only, as the multiset of its items; the `Put` in
`BalloonPopulatePfnArray`, the `Get` in `BalloonReleasePfnArray` and `MmAddPhysicalMemory` succeed.
Assertions are those of the free build, that is, none.
-/

namespace XenBus.Balloon

open MachineInt Transition

/-- The `NTSTATUS` values of `balloon.c`: `STATUS_UNSUCCESSFUL` on a FIST entry, `STATUS_NO_MEMORY` on low
memory. -/
inductive Status
  | success
  | unsuccessful
  | noMemory
  | retry
  deriving DecidableEq

/-- `XENBUS_BALLOON_CONTEXT`, with what has become of pages: those that have been taken from the guest and
those that have been handed back, each as often as that, and those that Xen has. `popFailed` says that
a `Pop` has failed. -/
structure Context where
  Size : ℕ
  PfnArray : PfnArray
  RangeSet : Multiset ℕ
  Inflation : Bool
  Deflation : Bool
  taken : Multiset ℕ
  freed : Multiset ℕ
  given : Multiset ℕ
  popFailed : Bool

/-- `XENBUS_BALLOON_PFN_ARRAY_SIZE`. -/
def pfnArraySize : ℕ := 8192

/-- The array with `Pfn` copied to its start. -/
def fill (arr : PfnArray) (Pfn : List ℕ) (k : ℕ) : ℕ := Pfn[k]?.getD (arr k)

/-- The array with zero from `first` up to `last`. -/
def zero (arr : PfnArray) (first last : ℕ) (k : ℕ) : ℕ := if first ≤ k ∧ k < last then 0 else arr k

/-- The number of entries that a hypercall on `Requested` entries processes. -/
def processed (Requested : ℕ) : Option ℕ → ℕ
  | none => 0
  | some n => min n Requested

/-! ## Batches -/

/-- `BalloonAllocatePfnArray`, if the pages of the MDL are distinct and all in use by the guest. -/
def balloonAllocatePfnArray (ctx : Context) (Requested : ℕ) (Pfn : List ℕ) : Option Context :=
  if Pfn.length ≤ Requested ∧ Pfn.Nodup ∧ ∀ p ∈ Pfn, ctx.taken.count p = ctx.freed.count p then
    some { ctx with
      PfnArray := balloonSort (fill ctx.PfnArray Pfn) Pfn.length
      taken := ctx.taken + Pfn }
  else none

/-- `BalloonReleasePfnArray`, where the `Put` with the index `puts` fails. -/
def balloonReleasePfnArray (ctx : Context) (Requested puts : ℕ) (decreased : Option ℕ) : ℕ × Context :=
  if Requested = 0 then (0, ctx)
  else
    let Requested := min puts Requested
    let Count := processed Requested decreased
    (Count, { ctx with
      RangeSet := ctx.RangeSet + pfns ctx.PfnArray Requested -
        (pfns ctx.PfnArray Requested).drop Count
      given := ctx.given + pfns ctx.PfnArray Count
      PfnArray := zero ctx.PfnArray 0 Count })

/-- The loop over `Pop` of `BalloonPopulatePfnArray`, which takes the items `Pfn`: the range set, and
whether a `Pop` has failed. -/
def popAll (S : Multiset ℕ) : List ℕ → Option (Multiset ℕ × Bool)
  | [] => some (S, false)
  | p :: Pfn =>
    if S = 0 then (popAll S Pfn).map fun r => (r.1, true)
    else if p ∈ S then popAll (S.erase p) Pfn
    else none

/-- `BalloonPopulatePfnArray`. -/
def balloonPopulatePfnArray (ctx : Context) (Requested : ℕ) (Pfn : List ℕ) (populated : Option ℕ) :
    Option (ℕ × Context) :=
  if Pfn.length = Requested then
    (popAll ctx.RangeSet Pfn).map fun (S, failed) =>
      let arr := fill ctx.PfnArray Pfn
      let Count := processed Requested populated
      (Count, { ctx with
        RangeSet := S + (pfns arr Requested).drop Count
        given := ctx.given - pfns arr Count
        PfnArray := zero arr Count Requested
        popFailed := ctx.popFailed || failed })
  else none

/-- `BalloonFreePfnArray`, which returns `Requested`. -/
def balloonFreePfnArray (ctx : Context) (Requested : ℕ) : Context :=
  { ctx with
    freed := ctx.freed + pages (balloonFreePages ctx.PfnArray Requested Requested 0)
    PfnArray := zero ctx.PfnArray 0 Requested }

/-! ## Inflation and deflation -/

/-- The outcomes in one round of `BalloonInflate`. -/
structure InflateBatch where
  Pfn : List ℕ
  Slow : Bool
  puts : ℕ
  decreased : Option ℕ

/-- One round of the loop of `BalloonInflate`: the new status, the number of pages released. -/
def inflateBatch (ctx : Context) (ThisTime : ℕ) (batch : InflateBatch) : Option (Status × ℕ × Context) :=
  (balloonAllocatePfnArray ctx ThisTime batch.Pfn).map fun ctx =>
    let Allocated := batch.Pfn.length
    let status : Status := if Allocated < ThisTime ∨ batch.Slow then .retry else .success
    let (Released, ctx) := balloonReleasePfnArray ctx Allocated batch.puts batch.decreased
    let ctx :=
      if Released < Allocated then
        balloonFreePfnArray { ctx with
          PfnArray := fun k =>
            if k < Allocated - Released then ctx.PfnArray (Released + k) else ctx.PfnArray k }
          (Allocated - Released)
      else ctx
    (if Released = 0 then .retry else status, Released, ctx)

/-- The loop of `BalloonInflate`. -/
def inflateLoop (Requested : ℕ) : List InflateBatch → ℕ → Status → Context →
    Option (Status × ℕ × Context)
  | [], Count, status, ctx =>
    if Count < Requested ∧ status = .success then none else some (status, Count, ctx)
  | batch :: batches, Count, status, ctx =>
    if Count < Requested ∧ status = .success then
      (inflateBatch ctx (min (Requested - Count) pfnArraySize) batch).bind
        fun (status, Released, ctx) => inflateLoop Requested batches (Count + Released) status ctx
    else some (status, Count, ctx)

/-- `BalloonInflate`. -/
def balloonInflate (ctx : Context) (Requested : ℕ) (LowMemory : Bool) (batches : List InflateBatch) :
    Option (Status × Context) :=
  if ctx.Inflation then some (.unsuccessful, ctx)
  else if LowMemory then some (.noMemory, ctx)
  else
    (inflateLoop Requested batches 0 .success ctx).map fun (status, Count, ctx) =>
      (status, { ctx with Size := ulong64 (ctx.Size + Count) })

/-- The outcomes in one round of `BalloonDeflate`. -/
structure DeflateBatch where
  Pfn : List ℕ
  populated : Option ℕ

/-- One round of the loop of `BalloonDeflate`. -/
def deflateBatch (ctx : Context) (ThisTime : ℕ) (batch : DeflateBatch) : Option (Status × ℕ × Context) :=
  (balloonPopulatePfnArray ctx ThisTime batch.Pfn batch.populated).map fun (Populated, ctx) =>
    (if Populated < ThisTime then .retry else .success, Populated, balloonFreePfnArray ctx Populated)

/-- The loop of `BalloonDeflate`. -/
def deflateLoop (Requested : ℕ) : List DeflateBatch → ℕ → Status → Context →
    Option (Status × ℕ × Context)
  | [], Count, status, ctx =>
    if Count < Requested ∧ status = .success then none else some (status, Count, ctx)
  | batch :: batches, Count, status, ctx =>
    if Count < Requested ∧ status = .success then
      (deflateBatch ctx (min (Requested - Count) pfnArraySize) batch).bind
        fun (status, Freed, ctx) => deflateLoop Requested batches (Count + Freed) status ctx
    else some (status, Count, ctx)

/-- `BalloonDeflate`. -/
def balloonDeflate (ctx : Context) (Requested : ℕ) (batches : List DeflateBatch) :
    Option (Status × Context) :=
  if ctx.Deflation then some (.unsuccessful, ctx)
  else
    (deflateLoop Requested batches 0 .success ctx).map fun (status, Count, ctx) =>
      (status, { ctx with Size := ulong64 (ctx.Size - Count) })

/-! ## Adjustment -/

/-- A call of `BalloonAdjust` in progress: its target, the size at its start, and `status`. -/
structure Call where
  target : ℕ
  start : ℕ
  status : Status

structure State where
  ctx : Context
  call : Option Call

inductive Event
  /-- `BalloonAdjust` up to its loop, with the FIST entries. -/
  | adjust (Size : ℕ) (Inflation Deflation : Bool)
  | inflate (LowMemory : Bool) (batches : List InflateBatch)
  | deflate (batches : List DeflateBatch)
  /-- `BalloonAdjust` returns. -/
  | return

/-- One event: a call of `BalloonAdjust`, a round of its loop, or its return. -/
def step (s : State) : Event → Option State
  | .adjust Size Inflation Deflation =>
    match s.call with
    | none =>
      if Size < 18446744073709551616 then
        some ⟨{ s.ctx with Inflation := Inflation, Deflation := Deflation },
          some ⟨Size, s.ctx.Size, .success⟩⟩
      else none
    | some _ => none
  | .inflate LowMemory batches =>
    s.call.bind fun call =>
      if s.ctx.Size < call.target ∧ call.status = .success then
        (balloonInflate s.ctx (call.target - s.ctx.Size) LowMemory batches).map fun (status, ctx) =>
          ⟨ctx, some { call with status := status }⟩
      else none
  | .deflate batches =>
    s.call.bind fun call =>
      if call.target < s.ctx.Size ∧ call.status = .success then
        (balloonDeflate s.ctx (s.ctx.Size - call.target) batches).map fun (status, ctx) =>
          ⟨ctx, some { call with status := status }⟩
      else none
  | .return =>
    s.call.bind fun call =>
      if s.ctx.Size = call.target ∨ call.status ≠ .success then some ⟨s.ctx, none⟩ else none

/-- No page has been taken. -/
def init : State := ⟨⟨0, fun _ => 0, 0, false, false, 0, 0, 0, false⟩, none⟩

end XenBus.Balloon
