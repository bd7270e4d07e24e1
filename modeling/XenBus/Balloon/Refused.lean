import XenBus.Balloon.Model
import Mathlib.Algebra.BigOperators.Group.Multiset.Basic
import Mathlib.Algebra.Order.BigOperators.Group.List

/-!
# Pages that are not taken back

`MmAddPhysicalMemory` may refuse a run of pages. `BalloonFreePages` then gives up, and tells nobody;
`BalloonFreePfnArray` returns the number of pages it was asked for all the same, and wipes the array.

Here each call of `MmAddPhysicalMemory` has an outcome. `Freeing` is a call of `BalloonFreePfnArray`: what it
returns is the number of pages that were accepted exactly if none were refused (`Freeing.faithful_iff`), and
so for all such calls that `BalloonDeflate` and `BalloonInflate` make (`freed_iff_accepted`). Where no page is
refused, a round does what it does in `XenBus.Balloon.Model` (`deflateBatch_eq`, `inflateBatch_eq`).
-/

namespace XenBus.Balloon.Refused

open MachineInt

/-! ## Handing pages back -/

/-- `BalloonFreePages`, where `accepts` has the outcomes of the calls of `MmAddPhysicalMemory` to come: the
calls that succeed. -/
def balloonFreePages (Pfn : PfnArray) (Count : ℕ) :
    (fuel : ℕ) → (accepts : ℕ → Bool) → (RangeStart : ℕ) → List (ℕ × ℕ)
  | 0, _, _ => []
  | fuel + 1, accepts, RangeStart =>
    if RangeStart < Count then
      let RangeEnd := rangeEnd Pfn RangeStart Count Count RangeStart
      if accepts 0 then
        (Pfn RangeStart, RangeEnd - RangeStart) ::
          balloonFreePages Pfn Count fuel (fun call => accepts (call + 1)) RangeEnd
      else []
    else []

/-- A call of `BalloonFreePfnArray`: the context, the number of pages, the outcomes of the calls of
`MmAddPhysicalMemory`. -/
structure Freeing where
  ctx : Context
  Requested : ℕ
  accepts : ℕ → Bool

/-- The pages that are accepted. -/
def Freeing.accepted (f : Freeing) : List ℕ :=
  pages (balloonFreePages f.ctx.PfnArray f.Requested f.Requested f.accepts 0)

/-- `BalloonFreePfnArray`: what it returns, and the context after it. -/
def Freeing.balloonFreePfnArray (f : Freeing) : ℕ × Context :=
  if f.Requested = 0 then (0, f.ctx)
  else
    let Count := f.Requested
    (Count, { f.ctx with freed := f.ctx.freed + f.accepted, PfnArray := zero f.ctx.PfnArray 0 Count })

/-- A page is recorded in the range set or in the array. -/
def Recorded (ctx : Context) (p : ℕ) : Prop := p ∈ ctx.RangeSet ∨ ∃ k < pfnArraySize, ctx.PfnArray k = p

/-- What is returned is the number of pages that were accepted, and all others are still recorded. -/
structure Freeing.Faithful (f : Freeing) : Prop where
  count : f.balloonFreePfnArray.1 = f.accepted.length
  recorded : ∀ p ∈ pfns f.ctx.PfnArray f.Requested, p ∉ f.accepted → Recorded f.balloonFreePfnArray.2 p

/-- Each run of consecutive pages is accepted. -/
def Freeing.Accepted (f : Freeing) : Prop :=
  ∀ call < (Balloon.balloonFreePages f.ctx.PfnArray f.Requested f.Requested 0).length, f.accepts call = true

variable {Pfn : PfnArray} {Count fuel RangeStart : ℕ} {accepts : ℕ → Bool} {f : Freeing} {ctx ctx' : Context}

theorem pages_cons (call : ℕ × ℕ) (calls : List (ℕ × ℕ)) :
    pages (call :: calls) = (List.range call.2).map (call.1 + ·) ++ pages calls := rfl

/-- Where all runs are accepted, all pages are. -/
theorem balloonFreePages_of_accepted
    (h : ∀ call < (Balloon.balloonFreePages Pfn Count fuel RangeStart).length, accepts call = true) :
    balloonFreePages Pfn Count fuel accepts RangeStart = Balloon.balloonFreePages Pfn Count fuel RangeStart := by
  induction fuel generalizing accepts RangeStart with
  | zero => rfl
  | succ fuel ih =>
    rw [Balloon.balloonFreePages] at h ⊢
    rw [balloonFreePages]
    split_ifs with hlt hfirst
    · rw [if_pos hlt] at h
      exact congrArg (List.cons _) (ih fun call hcall => h (call + 1) (Nat.succ_lt_succ hcall))
    · rw [if_pos hlt] at h
      exact absurd (h 0 (Nat.succ_pos _)) hfirst
    · rfl

/-- No more pages are accepted than were asked for, and fewer if a run is refused. -/
theorem length_pages_le (Pfn : PfnArray) (Count fuel RangeStart : ℕ) (accepts : ℕ → Bool) :
    (pages (balloonFreePages Pfn Count fuel accepts RangeStart)).length ≤
      (pages (Balloon.balloonFreePages Pfn Count fuel RangeStart)).length ∧
    ((pages (balloonFreePages Pfn Count fuel accepts RangeStart)).length =
      (pages (Balloon.balloonFreePages Pfn Count fuel RangeStart)).length →
        ∀ call < (Balloon.balloonFreePages Pfn Count fuel RangeStart).length, accepts call = true) := by
  induction fuel generalizing accepts RangeStart with
  | zero =>
    refine ⟨le_rfl, fun _ call hcall => ?_⟩
    simp [Balloon.balloonFreePages] at hcall
  | succ fuel ih =>
    rw [Balloon.balloonFreePages, balloonFreePages]
    split_ifs with hlt hfirst
    · obtain ⟨hle, heq⟩ := ih (rangeEnd Pfn RangeStart Count Count RangeStart) fun call => accepts (call + 1)
      simp only [pages_cons, List.length_append]
      refine ⟨by omega, fun hsame call hcall => ?_⟩
      cases call with
      | zero => exact hfirst
      | succ call => exact heq (by omega) call (Nat.lt_of_succ_lt_succ hcall)
    · have hpos := lt_rangeEnd Pfn hlt
      simp only [pages_cons, List.length_append, List.length_map, List.length_range]
      refine ⟨Nat.zero_le _, fun hsame => ?_⟩
      have hnone : (pages ([] : List (ℕ × ℕ))).length = 0 := rfl
      omega
    · refine ⟨le_rfl, fun _ call hcall => ?_⟩
      simp at hcall

theorem Freeing.count_eq (f : Freeing) : f.balloonFreePfnArray.1 = f.Requested := by
  rw [balloonFreePfnArray]
  split_ifs with hzero
  · exact hzero.symm
  · rfl

/-- The pages of all runs are those of the array. -/
theorem pages_all (Pfn : PfnArray) (Count : ℕ) :
    pages (Balloon.balloonFreePages Pfn Count Count 0) = pfns Pfn Count := by
  rw [pages_balloonFreePages Pfn (Nat.le_add_left Count 0), List.drop_zero]

theorem Freeing.length_accepted_le (f : Freeing) : f.accepted.length ≤ f.Requested := by
  have hle := (length_pages_le f.ctx.PfnArray f.Requested f.Requested 0 f.accepts).1
  rwa [pages_all, length_pfns] at hle

/-- As many pages are accepted as were asked for exactly if no run is refused. -/
theorem Freeing.length_accepted_iff (f : Freeing) : f.accepted.length = f.Requested ↔ f.Accepted := by
  constructor
  · intro hlength
    refine (length_pages_le f.ctx.PfnArray f.Requested f.Requested 0 f.accepts).2 ?_
    rw [pages_all, length_pfns]
    exact hlength
  · intro h
    rw [accepted, balloonFreePages_of_accepted h, pages_all, length_pfns]

/-- **`BalloonFreePfnArray` returns what was accepted, and loses no page, exactly if no run is refused.** -/
theorem Freeing.faithful_iff (f : Freeing) : f.Faithful ↔ f.Accepted := by
  constructor
  · intro h
    rw [← f.length_accepted_iff, ← h.count, f.count_eq]
  · intro h
    refine ⟨f.count_eq.trans (f.length_accepted_iff.2 h).symm, fun p hp hnot => ?_⟩
    rw [accepted, balloonFreePages_of_accepted h, pages_all] at hnot
    exact absurd hp hnot

/-! ## Batches -/

/-- The outcomes in one round of `BalloonDeflate`. -/
structure DeflateBatch extends Balloon.DeflateBatch where
  accepts : ℕ → Bool

/-- One round of the loop of `BalloonDeflate`: the new status, the call of `BalloonFreePfnArray`. -/
def deflateBatch (ctx : Context) (ThisTime : ℕ) (batch : DeflateBatch) : Option (Status × Freeing) :=
  (balloonPopulatePfnArray ctx ThisTime batch.Pfn batch.populated).map fun (Populated, ctx) =>
    (if Populated < ThisTime then .retry else .success, ⟨ctx, Populated, batch.accepts⟩)

/-- The loop of `BalloonDeflate`, with the calls of `BalloonFreePfnArray` so far. -/
def deflateLoop (Requested : ℕ) : List DeflateBatch → ℕ → Status → List Freeing → Context →
    Option (Status × ℕ × List Freeing × Context)
  | [], Count, status, calls, ctx =>
    if Count < Requested ∧ status = .success then none else some (status, Count, calls, ctx)
  | batch :: batches, Count, status, calls, ctx =>
    if Count < Requested ∧ status = .success then
      (deflateBatch ctx (min (Requested - Count) pfnArraySize) batch).bind fun (status, f) =>
        let (Freed, ctx) := f.balloonFreePfnArray
        deflateLoop Requested batches (Count + Freed) status (calls ++ [f]) ctx
    else some (status, Count, calls, ctx)

/-- `BalloonDeflate`, with the calls of `BalloonFreePfnArray` that it makes. -/
def balloonDeflate (ctx : Context) (Requested : ℕ) (batches : List DeflateBatch) :
    Option (Status × List Freeing × Context) :=
  if ctx.Deflation then some (.unsuccessful, [], ctx)
  else
    (deflateLoop Requested batches 0 .success [] ctx).map fun (status, Count, calls, ctx) =>
      (status, calls, { ctx with Size := ulong64 (ctx.Size - Count) })

/-- The outcomes in one round of `BalloonInflate`. -/
structure InflateBatch extends Balloon.InflateBatch where
  accepts : ℕ → Bool

/-- The compensation path of `BalloonInflate`: what was allocated and not released is moved to the start of
the array, and freed. -/
def compensate (ctx : Context) (Allocated Released : ℕ) (accepts : ℕ → Bool) : List Freeing × Context :=
  if Released < Allocated then
    let f : Freeing := ⟨{ ctx with
        PfnArray := fun k =>
          if k < Allocated - Released then ctx.PfnArray (Released + k) else ctx.PfnArray k },
      Allocated - Released, accepts⟩
    ([f], f.balloonFreePfnArray.2)
  else ([], ctx)

/-- One round of the loop of `BalloonInflate`: the new status, the number of pages released, the calls of
`BalloonFreePfnArray`. -/
def inflateBatch (ctx : Context) (ThisTime : ℕ) (batch : InflateBatch) :
    Option (Status × ℕ × List Freeing × Context) :=
  (balloonAllocatePfnArray ctx ThisTime batch.Pfn).map fun ctx =>
    let Allocated := batch.Pfn.length
    let status : Status := if Allocated < ThisTime ∨ batch.Slow then .retry else .success
    let (Released, ctx) := balloonReleasePfnArray ctx Allocated batch.puts batch.decreased
    (if Released = 0 then .retry else status, Released, compensate ctx Allocated Released batch.accepts)

/-- The loop of `BalloonInflate`, with the calls of `BalloonFreePfnArray` so far. -/
def inflateLoop (Requested : ℕ) : List InflateBatch → ℕ → Status → List Freeing → Context →
    Option (Status × ℕ × List Freeing × Context)
  | [], Count, status, calls, ctx =>
    if Count < Requested ∧ status = .success then none else some (status, Count, calls, ctx)
  | batch :: batches, Count, status, calls, ctx =>
    if Count < Requested ∧ status = .success then
      (inflateBatch ctx (min (Requested - Count) pfnArraySize) batch).bind
        fun (status, Released, calls', ctx) =>
          inflateLoop Requested batches (Count + Released) status (calls ++ calls') ctx
    else some (status, Count, calls, ctx)

/-- `BalloonInflate`, with the calls of `BalloonFreePfnArray` that it makes. -/
def balloonInflate (ctx : Context) (Requested : ℕ) (LowMemory : Bool) (batches : List InflateBatch) :
    Option (Status × List Freeing × Context) :=
  if ctx.Inflation then some (.unsuccessful, [], ctx)
  else if LowMemory then some (.noMemory, [], ctx)
  else
    (inflateLoop Requested batches 0 .success [] ctx).map fun (status, Count, calls, ctx) =>
      (status, calls, { ctx with Size := ulong64 (ctx.Size + Count) })

/-! ## What the calls come to -/

/-- The number of pages that the calls return. -/
def returned (calls : List Freeing) : ℕ := (calls.map fun f => f.balloonFreePfnArray.1).sum

/-- The pages that were accepted in the calls. -/
def accepted (calls : List Freeing) : Multiset ℕ := (calls.map fun f => (f.accepted : Multiset ℕ)).sum

/-- What a loop does, apart from the array and the range set: it makes the calls, and the guest gets the pages
that are accepted. -/
structure Makes (ctx ctx' : Context) (calls : List Freeing) : Prop where
  freed : ctx'.freed = ctx.freed + accepted calls
  size : ctx'.Size = ctx.Size

theorem Makes.refl (ctx : Context) : Makes ctx ctx [] := ⟨(add_zero _).symm, rfl⟩

theorem Makes.trans {ctx'' : Context} {calls calls' : List Freeing} (h : Makes ctx ctx' calls)
    (h' : Makes ctx' ctx'' calls') : Makes ctx ctx'' (calls ++ calls') where
  freed := by
    rw [h'.freed, h.freed, accepted, accepted, accepted, List.map_append, List.sum_append, add_assoc]
  size := h'.size.trans h.size

/-- A call of `BalloonFreePfnArray`. -/
theorem Freeing.makes (f : Freeing) : Makes f.ctx f.balloonFreePfnArray.2 [f] := by
  rw [balloonFreePfnArray]
  split_ifs with hzero
  · have hnone : f.accepted = [] := List.length_eq_zero_iff.1 (Nat.le_zero.1 (hzero ▸ f.length_accepted_le))
    exact ⟨by simp [Refused.accepted, hnone], rfl⟩
  · exact ⟨by simp [Refused.accepted], rfl⟩

/-- As many pages are returned as were accepted exactly if no call was refused a run. -/
theorem card_accepted_iff (calls : List Freeing) :
    (accepted calls).card = returned calls ↔ ∀ f ∈ calls, f.Accepted := by
  suffices hboth : (accepted calls).card ≤ returned calls ∧
      ((accepted calls).card = returned calls ↔ ∀ f ∈ calls, f.Accepted) from hboth.2
  induction calls with
  | nil => simp [accepted, returned]
  | cons f calls ih =>
    have haccepted : (accepted (f :: calls)).card = f.accepted.length + (accepted calls).card := by
      simp [accepted]
    have hreturned : returned (f :: calls) = f.Requested + returned calls := by
      simp [returned, f.count_eq]
    have hle := f.length_accepted_le
    rw [haccepted, hreturned, List.forall_mem_cons, ← f.length_accepted_iff, ← ih.2]
    have := ih.1
    omega

theorem balloonPopulatePfnArray_makes {Requested Populated : ℕ} {Pfn : List ℕ} {populated : Option ℕ}
    (h : balloonPopulatePfnArray ctx Requested Pfn populated = some (Populated, ctx')) : Makes ctx ctx' [] := by
  rw [balloonPopulatePfnArray] at h
  split_ifs at h
  obtain ⟨⟨S, failed⟩, -, heq⟩ := Option.map_eq_some_iff.1 h
  simp only [Prod.mk.injEq] at heq
  obtain ⟨-, rfl⟩ := heq
  exact ⟨(add_zero _).symm, rfl⟩

theorem balloonAllocatePfnArray_makes {Requested : ℕ} {Pfn : List ℕ}
    (h : balloonAllocatePfnArray ctx Requested Pfn = some ctx') : Makes ctx ctx' [] := by
  rw [balloonAllocatePfnArray] at h
  split_ifs at h
  obtain rfl := Option.some.inj h
  exact ⟨(add_zero _).symm, rfl⟩

theorem balloonReleasePfnArray_makes (ctx : Context) (Requested puts : ℕ) (decreased : Option ℕ) :
    Makes ctx (balloonReleasePfnArray ctx Requested puts decreased).2 [] := by
  rw [balloonReleasePfnArray]
  split_ifs
  · exact .refl ctx
  · exact ⟨(add_zero _).symm, rfl⟩

theorem deflateLoop_makes {Requested Count n : ℕ} {batches : List DeflateBatch} {status status' : Status}
    {calls calls' : List Freeing}
    (h : deflateLoop Requested batches Count status calls ctx = some (status', n, calls', ctx')) :
    ∃ more, calls' = calls ++ more ∧ Makes ctx ctx' more ∧ n = Count + returned more := by
  induction batches generalizing Count status calls ctx with
  | nil =>
    rw [deflateLoop] at h
    split_ifs at h
    simp only [Option.some.injEq, Prod.mk.injEq] at h
    obtain ⟨-, rfl, rfl, rfl⟩ := h
    exact ⟨[], (List.append_nil _).symm, .refl ctx, rfl⟩
  | cons batch batches ih =>
    rw [deflateLoop] at h
    split_ifs at h
    · obtain ⟨⟨status₁, f⟩, hbatch, hrest⟩ := Option.bind_eq_some_iff.1 h
      obtain ⟨⟨Populated, ctx₁⟩, hpopulate, heq⟩ := Option.map_eq_some_iff.1 hbatch
      simp only [Prod.mk.injEq] at heq
      obtain ⟨-, rfl⟩ := heq
      obtain ⟨more, rfl, hmakes, rfl⟩ := ih hrest
      refine ⟨_ :: more, List.append_assoc _ _ _, ?_, Nat.add_assoc _ _ _⟩
      exact (balloonPopulatePfnArray_makes hpopulate).trans ((Freeing.makes _).trans hmakes)
    · simp only [Option.some.injEq, Prod.mk.injEq] at h
      obtain ⟨-, rfl, rfl, rfl⟩ := h
      exact ⟨[], (List.append_nil _).symm, .refl ctx, rfl⟩

theorem compensate_makes (ctx : Context) (Allocated Released : ℕ) (accepts : ℕ → Bool) :
    Makes ctx (compensate ctx Allocated Released accepts).2 (compensate ctx Allocated Released accepts).1 := by
  rw [compensate]
  split_ifs with hlt
  · have hmove : Makes ctx { ctx with
        PfnArray := fun k =>
          if k < Allocated - Released then ctx.PfnArray (Released + k) else ctx.PfnArray k } [] :=
      ⟨(add_zero _).symm, rfl⟩
    exact hmove.trans (Freeing.makes ⟨_, Allocated - Released, accepts⟩)
  · exact .refl ctx

theorem inflateBatch_makes {ThisTime Released : ℕ} {batch : InflateBatch} {status : Status}
    {calls : List Freeing} (h : inflateBatch ctx ThisTime batch = some (status, Released, calls, ctx')) :
    Makes ctx ctx' calls := by
  obtain ⟨ctx₁, halloc, heq⟩ := Option.map_eq_some_iff.1 h
  simp only [Prod.mk.injEq] at heq
  obtain ⟨-, -, hcompensate⟩ := heq
  have hmakes := compensate_makes (balloonReleasePfnArray ctx₁ batch.Pfn.length batch.puts batch.decreased).2
    batch.Pfn.length (balloonReleasePfnArray ctx₁ batch.Pfn.length batch.puts batch.decreased).1 batch.accepts
  rw [hcompensate] at hmakes
  exact (balloonAllocatePfnArray_makes halloc).trans
    ((balloonReleasePfnArray_makes ctx₁ _ batch.puts batch.decreased).trans hmakes)

theorem inflateLoop_makes {Requested Count n : ℕ} {batches : List InflateBatch} {status status' : Status}
    {calls calls' : List Freeing}
    (h : inflateLoop Requested batches Count status calls ctx = some (status', n, calls', ctx')) :
    ∃ more, calls' = calls ++ more ∧ Makes ctx ctx' more := by
  induction batches generalizing Count status calls ctx with
  | nil =>
    rw [inflateLoop] at h
    split_ifs at h
    simp only [Option.some.injEq, Prod.mk.injEq] at h
    obtain ⟨-, -, rfl, rfl⟩ := h
    exact ⟨[], (List.append_nil _).symm, .refl ctx⟩
  | cons batch batches ih =>
    rw [inflateLoop] at h
    split_ifs at h
    · obtain ⟨⟨status₁, Released, calls₁, ctx₁⟩, hbatch, hrest⟩ := Option.bind_eq_some_iff.1 h
      obtain ⟨more, rfl, hmakes⟩ := ih hrest
      exact ⟨calls₁ ++ more, List.append_assoc _ _ _, (inflateBatch_makes hbatch).trans hmakes⟩
    · simp only [Option.some.injEq, Prod.mk.injEq] at h
      obtain ⟨-, -, rfl, rfl⟩ := h
      exact ⟨[], (List.append_nil _).symm, .refl ctx⟩

/-- **Pages that are counted as freed have been given back to the guest exactly if no run was refused.** For
every call of `BalloonFreePfnArray`, with any array and any outcomes; and for those that `BalloonDeflate` and
`BalloonInflate` make: `Size` is reduced by what they return, which is what the guest gets exactly if no call
was refused a run, and only then is every one of them faithful. -/
theorem freed_iff_accepted (ctx : Context) (Requested : ℕ) :
    (∀ accepts, (⟨ctx, Requested, accepts⟩ : Freeing).Faithful ↔ (⟨ctx, Requested, accepts⟩ : Freeing).Accepted) ∧
      (∀ batches status calls ctx',
        balloonDeflate ctx Requested batches = some (status, calls, ctx') →
        ctx'.Size = (if ctx.Deflation then ctx.Size else ulong64 (ctx.Size - returned calls)) ∧
          ctx'.freed = ctx.freed + accepted calls ∧
          ((accepted calls).card = returned calls ↔ ∀ f ∈ calls, f.Accepted) ∧
          ((∀ f ∈ calls, f.Faithful) ↔ ∀ f ∈ calls, f.Accepted)) ∧
      ∀ LowMemory batches status calls ctx',
        balloonInflate ctx Requested LowMemory batches = some (status, calls, ctx') →
        ctx'.freed = ctx.freed + accepted calls ∧
          ((accepted calls).card = returned calls ↔ ∀ f ∈ calls, f.Accepted) ∧
          ((∀ f ∈ calls, f.Faithful) ↔ ∀ f ∈ calls, f.Accepted) := by
  have hall : ∀ calls : List Freeing, (∀ f ∈ calls, f.Faithful) ↔ ∀ f ∈ calls, f.Accepted := fun calls =>
    forall₂_congr fun f _ => f.faithful_iff
  refine ⟨fun accepts => Freeing.faithful_iff ⟨ctx, Requested, accepts⟩, ?_, ?_⟩
  · intro batches status calls ctx' h
    rw [balloonDeflate] at h
    split_ifs at h with hfist
    · simp only [Option.some.injEq, Prod.mk.injEq] at h
      obtain ⟨-, rfl, rfl⟩ := h
      exact ⟨(if_pos hfist).symm, (add_zero _).symm, card_accepted_iff [], hall []⟩
    · obtain ⟨⟨status₁, n, calls₁, ctx₁⟩, hloop, heq⟩ := Option.map_eq_some_iff.1 h
      simp only [Prod.mk.injEq] at heq
      obtain ⟨-, rfl, rfl⟩ := heq
      obtain ⟨more, hcalls, hmakes, rfl⟩ := deflateLoop_makes hloop
      obtain rfl : calls₁ = more := hcalls
      refine ⟨?_, hmakes.freed, card_accepted_iff calls₁, hall calls₁⟩
      simp only [if_neg hfist, hmakes.size, Nat.zero_add]
  · intro LowMemory batches status calls ctx' h
    rw [balloonInflate] at h
    split_ifs at h
    · simp only [Option.some.injEq, Prod.mk.injEq] at h
      obtain ⟨-, rfl, rfl⟩ := h
      exact ⟨(add_zero _).symm, card_accepted_iff [], hall []⟩
    · simp only [Option.some.injEq, Prod.mk.injEq] at h
      obtain ⟨-, rfl, rfl⟩ := h
      exact ⟨(add_zero _).symm, card_accepted_iff [], hall []⟩
    · obtain ⟨⟨status₁, n, calls₁, ctx₁⟩, hloop, heq⟩ := Option.map_eq_some_iff.1 h
      simp only [Prod.mk.injEq] at heq
      obtain ⟨-, rfl, rfl⟩ := heq
      obtain ⟨more, hcalls, hmakes⟩ := inflateLoop_makes hloop
      obtain rfl : calls₁ = more := hcalls
      exact ⟨hmakes.freed, card_accepted_iff calls₁, hall calls₁⟩

/-- Two pages in the balloon. -/
def twoPages : Context := ⟨2, fun _ => 0, {5, 7}, false, false, {5, 7}, 0, {5, 7}, false⟩

/-- A round that takes both of them back from Xen, and is refused the second one. -/
def refusedBatch : DeflateBatch := ⟨⟨[5, 7], some 2⟩, fun call => call == 0⟩

theorem freed_iff_accepted_two : ∃ status calls ctx',
    balloonDeflate twoPages 2 [refusedBatch] = some (status, calls, ctx') ∧
      ((accepted calls).card = returned calls ↔ ∀ f ∈ calls, f.Accepted) := by
  obtain ⟨-, hdeflate, -⟩ := freed_iff_accepted twoPages 2
  exact ⟨.success, _, _, rfl, (hdeflate [refusedBatch] _ _ _ rfl).2.2.1⟩

/-- **A page that is lost.** `BalloonDeflate` takes two pages back from Xen, and the guest refuses one of them.
Two are counted as freed, and the other is neither with the guest nor recorded. -/
theorem page_lost : ∃ status calls ctx',
    balloonDeflate twoPages 2 [refusedBatch] = some (status, calls, ctx') ∧
      twoPages.Size = 2 ∧ ctx'.Size = 0 ∧ ctx'.freed = {5} ∧ ¬ Recorded ctx' 7 := by
  refine ⟨.success, _, _, rfl, rfl, rfl, rfl, ?_⟩
  rintro (hmem | ⟨k, -, hk⟩)
  · exact absurd hmem (Multiset.notMem_zero 7)
  · change zero (zero (fill (fun _ => 0) [5, 7]) 2 2) 0 2 k = 7 at hk
    by_cases hlt : k < 2
    · simp [zero, hlt] at hk
    · simp [zero, hlt, fill] at hk

/-! ## Where nothing is refused -/

theorem Freeing.balloonFreePfnArray_of_accepted (h : f.Accepted) :
    f.balloonFreePfnArray = (f.Requested, Balloon.balloonFreePfnArray f.ctx f.Requested) := by
  have hcalls := balloonFreePages_of_accepted h
  rw [balloonFreePfnArray]
  split_ifs with hzero
  · have harray : zero f.ctx.PfnArray 0 0 = f.ctx.PfnArray := by
      funext k
      exact if_neg (by omega)
    have hnone : pages (Balloon.balloonFreePages f.ctx.PfnArray 0 0 0) = [] := rfl
    rw [hzero, Balloon.balloonFreePfnArray, harray, hnone, Multiset.coe_nil, add_zero]
  · rw [accepted, hcalls]
    rfl

/-- A round of `BalloonDeflate` in which no run is refused. -/
theorem deflateBatch_eq (ThisTime : ℕ) (batch : DeflateBatch)
    (h : ∀ status f, deflateBatch ctx ThisTime batch = some (status, f) → f.Accepted) :
    Balloon.deflateBatch ctx ThisTime batch.toDeflateBatch =
      (deflateBatch ctx ThisTime batch).map fun r => (r.1, r.2.balloonFreePfnArray) := by
  rw [Balloon.deflateBatch, deflateBatch] at *
  rcases hpopulate : balloonPopulatePfnArray ctx ThisTime batch.Pfn batch.populated with _ | ⟨Populated, ctx₁⟩
  · rfl
  · have haccepted := h _ ⟨ctx₁, Populated, batch.accepts⟩ (by rw [hpopulate]; rfl)
    simp only [Option.map_some, Freeing.balloonFreePfnArray_of_accepted haccepted]

theorem compensate_of_accepted {Allocated Released : ℕ}
    (h : ∀ f ∈ (compensate ctx Allocated Released accepts).1, f.Accepted) :
    (compensate ctx Allocated Released accepts).2 =
      if Released < Allocated then
        Balloon.balloonFreePfnArray { ctx with
          PfnArray := fun k =>
            if k < Allocated - Released then ctx.PfnArray (Released + k) else ctx.PfnArray k }
          (Allocated - Released)
      else ctx := by
  rw [compensate] at h ⊢
  split_ifs at h ⊢ with hlt
  · exact congrArg Prod.snd (Freeing.balloonFreePfnArray_of_accepted (h _ (List.mem_singleton_self _)))
  · rfl

/-- A round of `BalloonInflate` in which no run is refused. -/
theorem inflateBatch_eq (ThisTime : ℕ) (batch : InflateBatch)
    (h : ∀ status Released calls ctx', inflateBatch ctx ThisTime batch = some (status, Released, calls, ctx') →
      ∀ f ∈ calls, f.Accepted) :
    Balloon.inflateBatch ctx ThisTime batch.toInflateBatch =
      (inflateBatch ctx ThisTime batch).map fun r => (r.1, r.2.1, r.2.2.2) := by
  rw [Balloon.inflateBatch]
  rcases halloc : balloonAllocatePfnArray ctx ThisTime batch.Pfn with _ | ctx₁
  · rw [inflateBatch, halloc]
    rfl
  · simp only [inflateBatch, halloc, Option.map_some] at h ⊢
    rw [compensate_of_accepted (h _ _ _ _ rfl)]

end XenBus.Balloon.Refused
