import XenBus.Balloon.Accounting

/-!
# The assertions on the scratch array

`balloon.c` in the checked build: `BalloonAllocatePfnArray` and `BalloonPopulatePfnArray` assert that the part
of `Context->PfnArray` that they are to fill is zero, `BalloonFreePfnArray` that the part that it hands back
is not. `asserts` says whether all assertions have held so far; the outcome of every `Put` and `Get` is
open, also of those that are asserted to succeed.

When `BalloonReleasePfnArray` has released some of the pages of a batch and not all of them, `BalloonInflate`
moves the others to the front of the array, and what it hands back from there stays where it was before.
Nothing clears it later: `asserts_iff_clean` says that an assertion fails exactly if a later batch is larger
than the part that is zero, or if a `Put` or `Get` fails that is asserted to succeed. In `stale_entries` the
next call of `BalloonAdjust` meets what the one before has left.

Where no such `Put` or `Get` fails, a round does what it does in `XenBus.Balloon.Model`
(`Same.inflateBatch`, `Same.deflateBatch`).
-/

namespace XenBus.Balloon.Scratch

open MachineInt Transition

/-! ## Data -/

/-- A batch: the number of pages that it is asked for, those allocated and those that the range set and the
hypercall have accepted in `BalloonInflate`, and whether each `Put` and `Get` that is asserted to succeed
has. -/
structure Batch where
  ThisTime : ℕ
  Allocated : ℕ
  Released : ℕ
  succeeded : Bool
  deriving DecidableEq

/-- `XENBUS_BALLOON_CONTEXT`, whether all assertions have held, and the batches so far. -/
structure Context where
  Size : ℕ
  PfnArray : PfnArray
  RangeSet : Multiset ℕ
  Inflation : Bool
  Deflation : Bool
  asserts : Bool
  batches : List Batch

/-- `ASSERT`. -/
def Context.assert (ctx : Context) (condition : Prop) [Decidable condition] : Context :=
  { ctx with asserts := ctx.asserts && decide condition }

/-- `IsZeroMemory` of the first entries. -/
def IsZeroMemory (arr : PfnArray) (n : ℕ) : Prop := ∀ k < n, arr k = 0

instance (arr : PfnArray) (n : ℕ) : Decidable (IsZeroMemory arr n) :=
  inferInstanceAs (Decidable (∀ k < n, arr k = 0))

/-! ## Batches -/

/-- `BalloonAllocatePfnArray`, where the MDL has the pages `Pfn`. -/
def balloonAllocatePfnArray (ctx : Context) (Requested : ℕ) (Pfn : List ℕ) : Context :=
  let ctx := ctx.assert (Requested ≠ 0 ∧ Requested ≤ pfnArraySize ∧ IsZeroMemory ctx.PfnArray Requested)
  { ctx with PfnArray := balloonSort (fill ctx.PfnArray Pfn) Pfn.length }

/-- A loop over the entries from `Index` on, with an operation on the range set and the outcome of each of
them: the range set, and whether all have succeeded. -/
def rangeSetAll (op : ℕ → Multiset ℕ → Multiset ℕ) (outcome : ℕ → Bool) :
    ℕ → Multiset ℕ → List ℕ → Multiset ℕ × Bool
  | _, S, [] => (S, true)
  | Index, S, p :: Pfn =>
    let (S, succeeded) := rangeSetAll op outcome (Index + 1) (if outcome Index then op p S else S) Pfn
    (S, outcome Index && succeeded)

/-- The loop over `Get` of `BalloonReleasePfnArray`. -/
def getAll := rangeSetAll fun p S => S.erase p

/-- The loop over `Put` of `BalloonPopulatePfnArray`. -/
def putAll := rangeSetAll fun p S => p ::ₘ S

/-- The outcomes in one round of `BalloonInflate`: the pages of the MDL, whether that was slow, the index of
the `Put` that fails, the pages that the hypercall processes, and the outcome of each `Get`. -/
structure InflateBatch where
  Pfn : List ℕ
  Slow : Bool
  puts : ℕ
  decreased : Option ℕ
  gets : ℕ → Bool

/-- The pages that are put. -/
def InflateBatch.Put (batch : InflateBatch) : ℕ := min batch.puts batch.Pfn.length

/-- The pages that are released. -/
def InflateBatch.Released (batch : InflateBatch) : ℕ := processed batch.Put batch.decreased

def InflateBatch.outcome (batch : InflateBatch) (ThisTime : ℕ) : Batch :=
  ⟨ThisTime, batch.Pfn.length, batch.Released,
    decide (∀ k < batch.Put, batch.Released ≤ k → batch.gets k = true)⟩

/-- `BalloonReleasePfnArray`: the number of pages released. -/
def balloonReleasePfnArray (ctx : Context) (Requested : ℕ) (batch : InflateBatch) : ℕ × Context :=
  let ctx := ctx.assert (Requested ≤ pfnArraySize)
  if Requested = 0 then (0, ctx)
  else
    let Requested := min batch.puts Requested
    let RangeSet := ctx.RangeSet + pfns ctx.PfnArray Requested
    let Count := processed Requested batch.decreased
    let (RangeSet, succeeded) := getAll batch.gets Count RangeSet ((pfns ctx.PfnArray Requested).drop Count)
    (Count, { ctx.assert (succeeded = true) with
      RangeSet := RangeSet
      PfnArray := zero ctx.PfnArray 0 Count })

/-- The outcomes in one round of `BalloonDeflate`: the items that are popped, the pages that the hypercall
processes, and the outcome of each `Put`. -/
structure DeflateBatch where
  Pfn : List ℕ
  populated : Option ℕ
  puts : ℕ → Bool

def DeflateBatch.outcome (batch : DeflateBatch) (ThisTime : ℕ) : Batch :=
  ⟨ThisTime, 0, 0, decide (∀ k < ThisTime, processed ThisTime batch.populated ≤ k → batch.puts k = true)⟩

/-- `BalloonPopulatePfnArray`: the number of pages populated. -/
def balloonPopulatePfnArray (ctx : Context) (Requested : ℕ) (batch : DeflateBatch) : Option (ℕ × Context) :=
  if batch.Pfn.length = Requested then
    (popAll ctx.RangeSet batch.Pfn).map fun (RangeSet, failed) =>
      let ctx := ctx.assert
        (Requested ≠ 0 ∧ Requested ≤ pfnArraySize ∧ IsZeroMemory ctx.PfnArray Requested)
      let ctx := ctx.assert (failed = false)
      let arr := fill ctx.PfnArray batch.Pfn
      let Count := processed Requested batch.populated
      let (RangeSet, succeeded) := putAll batch.puts Count RangeSet ((pfns arr Requested).drop Count)
      (Count, { ctx.assert (succeeded = true) with
        RangeSet := RangeSet
        PfnArray := zero arr Count Requested })
  else none

/-- `BalloonFreePfnArray`, which returns `Requested`. -/
def balloonFreePfnArray (ctx : Context) (Requested : ℕ) : Context :=
  let ctx := ctx.assert (Requested ≤ pfnArraySize ∧ ∀ k < Requested, ctx.PfnArray k ≠ 0)
  { ctx with PfnArray := zero ctx.PfnArray 0 Requested }

/-- `RtlMoveMemory` of the entries from `first` up to `last` to the start of the array. -/
def moveMemory (arr : PfnArray) (first last : ℕ) (k : ℕ) : ℕ :=
  if k < last - first then arr (first + k) else arr k

/-- One round of the loop of `BalloonInflate`: the new status, the number of pages released. -/
def inflateBatch (ctx : Context) (ThisTime : ℕ) (batch : InflateBatch) : Status × ℕ × Context :=
  let ctx := balloonAllocatePfnArray ctx ThisTime batch.Pfn
  let Allocated := batch.Pfn.length
  let status : Status := if Allocated < ThisTime ∨ batch.Slow then .retry else .success
  let (Released, ctx) := balloonReleasePfnArray ctx Allocated batch
  let ctx :=
    if Released < Allocated then
      balloonFreePfnArray { ctx with PfnArray := moveMemory ctx.PfnArray Released Allocated }
        (Allocated - Released)
    else ctx
  (if Released = 0 then .retry else status, Released,
    { ctx with batches := ctx.batches ++ [batch.outcome ThisTime] })

/-- One round of the loop of `BalloonDeflate`. -/
def deflateBatch (ctx : Context) (ThisTime : ℕ) (batch : DeflateBatch) : Option (Status × ℕ × Context) :=
  (balloonPopulatePfnArray ctx ThisTime batch).map fun (Populated, ctx) =>
    let ctx := balloonFreePfnArray ctx Populated
    (if Populated < ThisTime then .retry else .success, Populated,
      { ctx with batches := ctx.batches ++ [batch.outcome ThisTime] })

/-! ## Adjustment -/

/-- Where `BalloonAdjust` is: in its own loop, or in that of `BalloonInflate` or `BalloonDeflate`. -/
inductive Phase
  | idle
  | adjusting (target : ℕ) (status : Status)
  | inflating (target Requested Count : ℕ) (status : Status)
  | deflating (target Requested Count : ℕ) (status : Status)
  deriving DecidableEq

structure State where
  ctx : Context
  phase : Phase

inductive Event
  /-- `BalloonAdjust` up to its loop, with the FIST entries. -/
  | adjust (Size : ℕ) (Inflation Deflation : Bool)
  /-- `BalloonInflate` up to its loop, a round of the loop, and the rest. -/
  | inflate (LowMemory : Bool)
  | inflateBatch (batch : InflateBatch)
  | inflated
  /-- `BalloonDeflate` in the same way. -/
  | deflate
  | deflateBatch (batch : DeflateBatch)
  | deflated
  /-- `BalloonAdjust` returns. -/
  | return

/-- One event. The pages of an MDL are at most as many as requested, distinct, and page frame 0 is not
among them. -/
def step (s : State) : Event → Option State
  | .adjust Size Inflation Deflation =>
    if s.phase = .idle ∧ Size < 18446744073709551616 then
      some ⟨{ s.ctx with
        Inflation := Inflation
        Deflation := Deflation }, .adjusting Size .success⟩
    else none
  | .inflate LowMemory =>
    match s.phase with
    | .adjusting target .success =>
      if s.ctx.Size < target then
        some ⟨s.ctx, if s.ctx.Inflation then .adjusting target .unsuccessful
          else if LowMemory then .adjusting target .noMemory
          else .inflating target (target - s.ctx.Size) 0 .success⟩
      else none
    | _ => none
  | .inflateBatch batch =>
    match s.phase with
    | .inflating target Requested Count .success =>
      let ThisTime := min (Requested - Count) pfnArraySize
      if Count < Requested ∧ batch.Pfn.length ≤ ThisTime ∧ batch.Pfn.Nodup ∧ 0 ∉ batch.Pfn then
        let (status, Released, ctx) := Scratch.inflateBatch s.ctx ThisTime batch
        some ⟨ctx, .inflating target Requested (Count + Released) status⟩
      else none
    | _ => none
  | .inflated =>
    match s.phase with
    | .inflating target Requested Count status =>
      if Count < Requested ∧ status = .success then none
      else some ⟨{ s.ctx with Size := ulong64 (s.ctx.Size + Count) }, .adjusting target status⟩
    | _ => none
  | .deflate =>
    match s.phase with
    | .adjusting target .success =>
      if target < s.ctx.Size then
        some ⟨s.ctx, if s.ctx.Deflation then .adjusting target .unsuccessful
          else .deflating target (s.ctx.Size - target) 0 .success⟩
      else none
    | _ => none
  | .deflateBatch batch =>
    match s.phase with
    | .deflating target Requested Count .success =>
      if Count < Requested then
        (Scratch.deflateBatch s.ctx (min (Requested - Count) pfnArraySize) batch).map
          fun (status, Freed, ctx) => ⟨ctx, .deflating target Requested (Count + Freed) status⟩
      else none
    | _ => none
  | .deflated =>
    match s.phase with
    | .deflating target Requested Count status =>
      if Count < Requested ∧ status = .success then none
      else some ⟨{ s.ctx with Size := ulong64 (s.ctx.Size - Count) }, .adjusting target status⟩
    | _ => none
  | .return =>
    match s.phase with
    | .adjusting target status =>
      if s.ctx.Size = target ∨ status ≠ .success then some ⟨s.ctx, .idle⟩ else none
    | _ => none

/-- No page has been taken. -/
def init : State := ⟨⟨0, fun _ => 0, 0, false, false, true, []⟩, .idle⟩

/-! ## What is expected -/

/-- Some of the pages of the batch have been released and not all of them. -/
def Batch.Partial (b : Batch) : Prop := 0 < b.Released ∧ b.Released < b.Allocated

/-- The first entry that such a batch leaves. -/
def Batch.stale (b : Batch) : ℕ := max b.Released (b.Allocated - b.Released)

/-- No batch is larger than what an earlier one has left at zero, and each `Put` and `Get` succeeds that is
asserted to succeed. -/
structure Clean (batches : List Batch) : Prop where
  fits : batches.Pairwise fun b b' => b.Partial → b'.ThisTime ≤ b.stale
  succeeded : ∀ b ∈ batches, b.succeeded = true

theorem clean_append {batches : List Batch} {b : Batch} :
    Clean (batches ++ [b]) ↔
      Clean batches ∧ (∀ b' ∈ batches, b'.Partial → b.ThisTime ≤ b'.stale) ∧ b.succeeded = true := by
  constructor
  · rintro ⟨hfits, hsucceeded⟩
    obtain ⟨hbefore, -, hlast⟩ := List.pairwise_append.mp hfits
    exact ⟨⟨hbefore, fun b' hb' => hsucceeded b' (List.mem_append_left _ hb')⟩,
      fun b' hb' => hlast b' hb' b (List.mem_singleton_self b), hsucceeded b (by simp)⟩
  · rintro ⟨⟨hfits, hsucceeded⟩, hlast, hb⟩
    refine ⟨List.pairwise_append.mpr ⟨hfits, List.pairwise_singleton _ _, fun b' hb' c hc => ?_⟩,
      fun b' hb' => ?_⟩
    · obtain rfl := List.mem_singleton.mp hc
      exact hlast b' hb'
    · obtain hb' | hb' := List.mem_append.mp hb'
      · exact hsucceeded b' hb'
      · obtain rfl := List.mem_singleton.mp hb'
        exact hb

/-! ## The array -/

/-- The array is zero up to the first entry that a batch has left, which is not; and page frame 0 is not in
the range set. -/
structure Sound (ctx : Context) : Prop where
  zero : ∀ k, (∀ b ∈ ctx.batches, b.Partial → k < b.stale) → ctx.PfnArray k = 0
  stale : ∀ b ∈ ctx.batches, b.Partial → ctx.PfnArray b.stale ≠ 0
  nonzero : 0 ∉ ctx.RangeSet

variable {ctx : Context} {arr : PfnArray} {ThisTime : ℕ}

/-- **The assertion at the start of a batch**: it is not larger than what the batches before have left at
zero. -/
theorem Sound.isZeroMemory_iff (h : Sound ctx) (n : ℕ) :
    IsZeroMemory ctx.PfnArray n ↔ ∀ b ∈ ctx.batches, b.Partial → n ≤ b.stale := by
  constructor
  · intro hzero b hb hpart
    by_contra hlt
    exact h.stale b hb hpart (hzero _ (by omega))
  · intro hfits k hk
    exact h.zero k fun b hb hpart => hk.trans_le (hfits b hb hpart)

/-- A batch that changes the array up to its size, which is zero after it up to what the batch leaves. -/
theorem Sound.append (h : Sound ctx) {ctx' : Context} {b : Batch}
    (hbatches : ctx'.batches = ctx.batches ++ [b])
    (hfits : ∀ b' ∈ ctx.batches, b'.Partial → b.ThisTime ≤ b'.stale)
    (hsame : ∀ k, b.ThisTime ≤ k → ctx'.PfnArray k = ctx.PfnArray k)
    (hzero : ∀ k < b.ThisTime, (b.Partial → k < b.stale) → ctx'.PfnArray k = 0)
    (hstale : b.Partial → b.stale < b.ThisTime ∧ ctx'.PfnArray b.stale ≠ 0)
    (hnonzero : 0 ∉ ctx'.RangeSet) : Sound ctx' := by
  refine ⟨fun k hk => ?_, fun b' hb' hpart => ?_, hnonzero⟩
  · rw [hbatches] at hk
    by_cases hlt : k < b.ThisTime
    · exact hzero k hlt fun hpart => hk b (by simp) hpart
    · rw [hsame k (by omega)]
      exact h.zero k fun b' hb' => hk b' (List.mem_append_left _ hb')
  · rw [hbatches] at hb'
    obtain hb' | hb' := List.mem_append.mp hb'
    · rw [hsame _ (hfits b' hb' hpart)]
      exact h.stale b' hb' hpart
    · obtain rfl := List.mem_singleton.mp hb'
      exact (hstale hpart).2

/-- The array after a round of `BalloonInflate` that has allocated the first `A` entries and released `R` of
them. -/
def inflatedArray (arr : PfnArray) (A R : ℕ) : PfnArray :=
  if R < A then zero (moveMemory (zero arr 0 R) R A) 0 (A - R) else zero arr 0 R

theorem inflatedArray_eq (arr : PfnArray) {A R : ℕ} (h : R ≤ A) (k : ℕ) :
    inflatedArray arr A R k =
      if k < A ∧ ¬ ((0 < R ∧ R < A) ∧ max R (A - R) ≤ k) then 0 else arr k := by
  unfold inflatedArray
  by_cases hlt : R < A
  · rw [if_pos hlt]
    simp only [zero, moveMemory]
    by_cases hk : k < A - R
    · rw [if_pos ⟨Nat.zero_le k, hk⟩, if_pos (by omega)]
    · rw [if_neg (by omega), if_neg hk]
      split_ifs <;> first | rfl | omega
  · rw [if_neg hlt]
    simp only [zero]
    split_ifs <;> first | rfl | omega

/-- The pages that have not been released are handed back from the front. -/
theorem moved_ne_zero {A R : ℕ} (harr : ∀ k < A, arr k ≠ 0) {k : ℕ} (hk : k < A - R) :
    moveMemory (zero arr 0 R) R A k ≠ 0 := by
  rw [moveMemory, if_pos hk, zero, if_neg (by omega)]
  exact harr _ (by omega)

/-- The array that `BalloonAllocatePfnArray` leaves. -/
theorem balloonSort_fill (arr : PfnArray) {Pfn : List ℕ} (h0 : 0 ∉ Pfn) :
    (∀ k < Pfn.length, balloonSort (fill arr Pfn) Pfn.length k ≠ 0) ∧
      ∀ k, Pfn.length ≤ k → balloonSort (fill arr Pfn) Pfn.length k = arr k := by
  constructor
  · intro k hk hzero
    have hperm := balloonSort_perm (fill arr Pfn) Pfn.length
    rw [pfns_fill] at hperm
    refine h0 (hperm.subset ?_)
    rw [← hzero]
    exact List.mem_map_of_mem (List.mem_range.mpr hk)
  · intro k hk
    rw [balloonSort_of_le _ hk, fill, List.getElem?_eq_none hk]
    rfl

/-! ## The range set -/

theorem rangeSetAll_snd (op : ℕ → Multiset ℕ → Multiset ℕ) (outcome : ℕ → Bool) (Index : ℕ) (S : Multiset ℕ)
    (Pfn : List ℕ) : (rangeSetAll op outcome Index S Pfn).2 = true ↔
      ∀ k < Index + Pfn.length, Index ≤ k → outcome k = true := by
  induction Pfn generalizing Index S with
  | nil => exact iff_of_true rfl fun k hk hle => absurd hk (not_lt.mpr hle)
  | cons p Pfn ih =>
    rw [rangeSetAll, List.length_cons]
    simp only [Bool.and_eq_true_iff, ih]
    constructor
    · rintro ⟨hfirst, hrest⟩ k hk hle
      obtain rfl | hlt := hle.eq_or_lt
      · exact hfirst
      · exact hrest k (by omega) hlt
    · intro hall
      exact ⟨hall Index (by omega) le_rfl, fun k hk hle => hall k (by omega) (by omega)⟩

/-- If all succeed, the operation is carried out for each entry. -/
theorem rangeSetAll_fst {op : ℕ → Multiset ℕ → Multiset ℕ} {outcome : ℕ → Bool} {Index : ℕ} {S : Multiset ℕ}
    {Pfn : List ℕ} (h : (rangeSetAll op outcome Index S Pfn).2 = true) :
    (rangeSetAll op outcome Index S Pfn).1 = Pfn.foldl (fun S p => op p S) S := by
  induction Pfn generalizing Index S with
  | nil => rfl
  | cons p Pfn ih =>
    obtain ⟨hfirst, hrest⟩ := Bool.and_eq_true_iff.mp h
    simp only [rangeSetAll, if_pos hfirst] at hrest ⊢
    exact ih hrest

/-- What has been put is got again. -/
theorem getAll_spec {gets : ℕ → Bool} {Index : ℕ} {S : Multiset ℕ} {Pfn : List ℕ}
    (h : (getAll gets Index (S + Pfn) Pfn).2 = true) : (getAll gets Index (S + Pfn) Pfn).1 = S := by
  refine (rangeSetAll_fst h).trans ?_
  clear h
  induction Pfn with
  | nil => exact add_zero S
  | cons p Pfn ih =>
    rw [List.foldl_cons, ← Multiset.cons_coe, Multiset.add_cons, Multiset.erase_cons_head]
    exact ih

theorem putAll_spec {puts : ℕ → Bool} {Index : ℕ} {S : Multiset ℕ} {Pfn : List ℕ}
    (h : (putAll puts Index S Pfn).2 = true) : (putAll puts Index S Pfn).1 = S + Pfn := by
  refine (rangeSetAll_fst h).trans ?_
  clear h
  induction Pfn generalizing S with
  | nil => exact (add_zero S).symm
  | cons p Pfn ih => rw [List.foldl_cons, ih, Multiset.cons_add, ← Multiset.cons_coe, Multiset.add_cons]

/-! ## Batches -/

/-- What a batch does to the context: assertions that have failed stay so, and if none has, then none fails if
and only if the batch is small enough and each `Put` and `Get` that is asserted to succeed does. -/
structure Did (ctx ctx' : Context) (b : Batch) : Prop where
  batches : ctx'.batches = ctx.batches ++ [b]
  size : ctx'.Size = ctx.Size
  kept : ctx'.asserts = true → ctx.asserts = true
  asserts : Sound ctx → ctx.asserts = true → (ctx'.asserts = true ↔
    (∀ b' ∈ ctx.batches, b'.Partial → b.ThisTime ≤ b'.stale) ∧ b.succeeded = true)
  sound : Sound ctx → ctx'.asserts = true → Sound ctx'

theorem InflateBatch.released_le (batch : InflateBatch) : batch.Released ≤ batch.Pfn.length :=
  (processed_le _ _).trans (min_le_right _ _)

/-- What `BalloonReleasePfnArray` does, of which nothing is asserted but its `Get`. -/
theorem release_spec (ctx : Context) (batch : InflateBatch) (ThisTime : ℕ)
    (hA : batch.Pfn.length ≤ pfnArraySize) :
    ∃ RangeSet, balloonReleasePfnArray ctx batch.Pfn.length batch = (batch.Released, { ctx with
        asserts := ctx.asserts && (batch.outcome ThisTime).succeeded
        RangeSet := RangeSet
        PfnArray := zero ctx.PfnArray 0 batch.Released }) ∧
      ((batch.outcome ThisTime).succeeded = true →
        RangeSet = ctx.RangeSet + pfns ctx.PfnArray batch.Released) := by
  have hput : batch.Released ≤ batch.Put := processed_le _ _
  unfold balloonReleasePfnArray
  by_cases hzero : batch.Pfn.length = 0
  · have hPut : batch.Put = 0 := by rw [InflateBatch.Put, hzero, Nat.min_zero]
    have hReleased : batch.Released = 0 := Nat.le_zero.mp (hPut ▸ hput)
    have hsame : zero ctx.PfnArray 0 0 = ctx.PfnArray := by
      funext k
      rw [zero, if_neg (by omega)]
    have hsucceeded : (batch.outcome ThisTime).succeeded = true :=
      decide_eq_true fun k hk => absurd hk (by omega)
    refine ⟨ctx.RangeSet, ?_, fun _ => ?_⟩
    · simp [hzero, hReleased, Context.assert, hsame, hsucceeded]
    · rw [hReleased]
      exact (add_zero _).symm
  · let got := getAll batch.gets batch.Released (ctx.RangeSet + pfns ctx.PfnArray batch.Put)
      ((pfns ctx.PfnArray batch.Put).drop batch.Released)
    have hgot : got.2 = (batch.outcome ThisTime).succeeded := by
      refine Bool.eq_iff_iff.mpr ((rangeSetAll_snd _ _ _ _ _).trans ?_)
      rw [List.length_drop, length_pfns, Nat.add_sub_cancel' hput]
      exact decide_eq_true_iff.symm
    refine ⟨got.1, ?_, fun hsucceeded => ?_⟩
    · rw [← hgot]
      simp only [if_neg hzero, Context.assert, hA, decide_true, Bool.and_true, Bool.decide_eq_true]
      rfl
    · have hsplit : ctx.RangeSet + pfns ctx.PfnArray batch.Put =
          ctx.RangeSet + pfns ctx.PfnArray batch.Released +
            ((pfns ctx.PfnArray batch.Put).drop batch.Released : Multiset ℕ) := by
        rw [add_assoc, Multiset.coe_add, ← take_pfns ctx.PfnArray hput, List.take_append_drop]
      rw [← hgot] at hsucceeded
      simp only [got, hsplit] at hsucceeded ⊢
      exact getAll_spec hsucceeded

/-- A batch that has been asserted to fit. -/
theorem did_of_asserts {ctx ctx' : Context} {b : Batch} (hbatches : ctx'.batches = ctx.batches ++ [b])
    (hsize : ctx'.Size = ctx.Size) (hkept : ctx'.asserts = true → ctx.asserts = true)
    (hasserts : Sound ctx → ctx.asserts = true →
      ctx'.asserts = (decide (IsZeroMemory ctx.PfnArray b.ThisTime) && b.succeeded))
    (hsound : Sound ctx → ctx.asserts = true →
      (∀ b' ∈ ctx.batches, b'.Partial → b.ThisTime ≤ b'.stale) → b.succeeded = true → Sound ctx') :
    Did ctx ctx' b where
  batches := hbatches
  size := hsize
  kept := hkept
  asserts h htrue := by
    rw [hasserts h htrue, Bool.and_eq_true_iff, decide_eq_true_iff, h.isZeroMemory_iff]
  sound h htrue := by
    have hbefore := hkept htrue
    rw [hasserts h hbefore, Bool.and_eq_true_iff, decide_eq_true_iff, h.isZeroMemory_iff] at htrue
    exact hsound h hbefore htrue.1 htrue.2

/-- The context after a round of `BalloonInflate`. -/
theorem inflateBatch_eq (ctx : Context) (batch : InflateBatch) (hpos : ThisTime ≠ 0)
    (hsize : ThisTime ≤ pfnArraySize) (hlength : batch.Pfn.length ≤ ThisTime)
    (harr : ∀ k < batch.Pfn.length, arr k ≠ 0)
    (hsort : balloonSort (fill ctx.PfnArray batch.Pfn) batch.Pfn.length = arr) :
    ∃ status RangeSet, inflateBatch ctx ThisTime batch = (status, batch.Released, { ctx with
        asserts := ctx.asserts && decide (IsZeroMemory ctx.PfnArray ThisTime) &&
          (batch.outcome ThisTime).succeeded
        RangeSet := RangeSet
        PfnArray := inflatedArray arr batch.Pfn.length batch.Released
        batches := ctx.batches ++ [batch.outcome ThisTime] }) ∧
      ((batch.outcome ThisTime).succeeded = true → RangeSet = ctx.RangeSet + pfns arr batch.Released) := by
  obtain ⟨RangeSet, hrelease, hRangeSet⟩ := release_spec
    (balloonAllocatePfnArray ctx ThisTime batch.Pfn) batch ThisTime (hlength.trans hsize)
  have harray : (balloonAllocatePfnArray ctx ThisTime batch.Pfn).PfnArray = arr := hsort
  have hasserts : (balloonAllocatePfnArray ctx ThisTime batch.Pfn).asserts =
      (ctx.asserts && decide (IsZeroMemory ctx.PfnArray ThisTime)) := by
    simp [balloonAllocatePfnArray, Context.assert, hpos, hsize]
  rw [harray] at hrelease hRangeSet
  refine ⟨if batch.Released = 0 then .retry
    else if batch.Pfn.length < ThisTime ∨ batch.Slow then .retry else .success, RangeSet, ?_, hRangeSet⟩
  simp only [inflateBatch, hrelease, hasserts, inflatedArray]
  by_cases hlt : batch.Released < batch.Pfn.length
  · have hfree : batch.Pfn.length - batch.Released ≤ pfnArraySize ∧ ∀ k < batch.Pfn.length - batch.Released,
        moveMemory (zero arr 0 batch.Released) batch.Released batch.Pfn.length k ≠ 0 :=
      ⟨by omega, fun k hk => moved_ne_zero harr hk⟩
    simp only [if_pos hlt, balloonFreePfnArray, Context.assert, decide_eq_true hfree, Bool.and_true]
    rfl
  · simp only [if_neg hlt]
    rfl

/-- **A round of `BalloonInflate`.** -/
theorem inflateBatch_spec (ctx : Context) (batch : InflateBatch) (hpos : ThisTime ≠ 0)
    (hsize : ThisTime ≤ pfnArraySize) (hlength : batch.Pfn.length ≤ ThisTime) (h0 : 0 ∉ batch.Pfn) :
    ∃ status ctx', inflateBatch ctx ThisTime batch = (status, batch.Released, ctx') ∧
      Did ctx ctx' (batch.outcome ThisTime) ∧
      (ctx'.asserts = true → ctx'.RangeSet.card = ctx.RangeSet.card + batch.Released) := by
  obtain ⟨hsorted, hbeyond⟩ := balloonSort_fill ctx.PfnArray h0
  obtain ⟨arr, hsort⟩ : ∃ arr, balloonSort (fill ctx.PfnArray batch.Pfn) batch.Pfn.length = arr := ⟨_, rfl⟩
  rw [hsort] at hsorted hbeyond
  obtain ⟨status, RangeSet, heq, hRangeSet⟩ := inflateBatch_eq ctx batch hpos hsize hlength hsorted hsort
  have hR := batch.released_le
  have hcard : (batch.outcome ThisTime).succeeded = true →
      RangeSet.card = ctx.RangeSet.card + batch.Released := fun hsucceeded => by
    rw [hRangeSet hsucceeded, Multiset.card_add, Multiset.coe_card, length_pfns]
  have hkept : (ctx.asserts && decide (IsZeroMemory ctx.PfnArray ThisTime) &&
      (batch.outcome ThisTime).succeeded) = true → ctx.asserts = true :=
    fun h => (Bool.and_eq_true_iff.mp (Bool.and_eq_true_iff.mp h).1).1
  refine ⟨status, _, heq, did_of_asserts rfl rfl hkept (fun _ htrue => ?_)
    fun hsound _ hfits hsucceeded => ?_, fun htrue => hcard (Bool.and_eq_true_iff.mp htrue).2⟩
  · show (ctx.asserts && _ && _) = _
    rw [htrue, Bool.true_and]
    rfl
  · refine hsound.append rfl hfits (fun k hk => ?_) (fun k hlt hk => ?_) (fun hpart => ?_) ?_
    · show inflatedArray arr _ _ k = _
      have hle : batch.Pfn.length ≤ k := hlength.trans hk
      rw [inflatedArray_eq arr hR, if_neg (by omega), hbeyond k hle]
    · show inflatedArray arr _ _ k = 0
      rw [inflatedArray_eq arr hR]
      by_cases hA : k < batch.Pfn.length
      · exact if_pos ⟨hA, fun hstale => absurd (hk hstale.1) hstale.2.not_gt⟩
      · rw [if_neg fun h => hA h.1, hbeyond k (not_lt.mp hA)]
        exact hsound.zero k fun b' hb' hpart => hlt.trans_le (hfits b' hb' hpart)
    · show (batch.outcome ThisTime).stale < ThisTime ∧
        inflatedArray arr _ _ (batch.outcome ThisTime).stale ≠ 0
      have hstale : (batch.outcome ThisTime).stale < batch.Pfn.length := by
        obtain ⟨hpos, hlt⟩ : 0 < batch.Released ∧ batch.Released < batch.Pfn.length := hpart
        show max batch.Released (batch.Pfn.length - batch.Released) < _
        omega
      refine ⟨hstale.trans_le hlength, ?_⟩
      rw [inflatedArray_eq arr hR, if_neg fun h => h.2 ⟨hpart, le_rfl⟩]
      exact hsorted _ hstale
    · show 0 ∉ RangeSet
      rw [hRangeSet hsucceeded, Multiset.mem_add, not_or]
      refine ⟨hsound.nonzero, fun hmem => ?_⟩
      obtain ⟨k, hk, hzero⟩ := List.mem_map.mp (Multiset.mem_coe.mp hmem)
      exact hsorted k ((List.mem_range.mp hk).trans_le hR) hzero

theorem fill_ne_zero {Pfn : List ℕ} (h0 : 0 ∉ Pfn) {k : ℕ} (hk : k < Pfn.length) : fill arr Pfn k ≠ 0 := by
  rw [fill, List.getElem?_eq_getElem hk, Option.getD_some]
  exact fun hzero => h0 (hzero ▸ List.getElem_mem hk)

/-- The context after a round of `BalloonDeflate`. -/
theorem deflateBatch_eq {ctx ctx' : Context} {batch : DeflateBatch} {status : Status} {Freed : ℕ}
    (hpos : ThisTime ≠ 0) (hsize : ThisTime ≤ pfnArraySize)
    (h : deflateBatch ctx ThisTime batch = some (status, Freed, ctx')) :
    ∃ S failed RangeSet, batch.Pfn.length = ThisTime ∧ Freed ≤ ThisTime ∧
      popAll ctx.RangeSet batch.Pfn = some (S, failed) ∧
      ((batch.outcome ThisTime).succeeded = true → RangeSet = S + (batch.Pfn.drop Freed : Multiset ℕ)) ∧
      ctx' = { ctx with
        asserts := ctx.asserts && decide (IsZeroMemory ctx.PfnArray ThisTime) && !failed &&
          (batch.outcome ThisTime).succeeded && decide (∀ k < Freed, fill ctx.PfnArray batch.Pfn k ≠ 0)
        RangeSet := RangeSet
        PfnArray := fun k => if k < ThisTime then 0 else ctx.PfnArray k
        batches := ctx.batches ++ [batch.outcome ThisTime] } := by
  obtain ⟨⟨Populated, ctx₁⟩, hpopulate, hrest⟩ := Option.map_eq_some_iff.mp h
  rw [balloonPopulatePfnArray] at hpopulate
  split_ifs at hpopulate with hlength
  subst hlength
  obtain ⟨⟨S, failed⟩, hpop, heq⟩ := Option.map_eq_some_iff.mp hpopulate
  obtain ⟨Count, hCount⟩ : ∃ n, n = processed batch.Pfn.length batch.populated := ⟨_, rfl⟩
  have hle : Count ≤ batch.Pfn.length := hCount ▸ processed_le _ _
  have harray : (fun k => zero (zero (fill ctx.PfnArray batch.Pfn) Count batch.Pfn.length) 0 Count k) =
      fun k => if k < batch.Pfn.length then 0 else ctx.PfnArray k := by
    funext k
    by_cases hk : k < batch.Pfn.length
    · simp only [zero, if_pos hk]
      split_ifs <;> first | rfl | omega
    · simp only [zero, fill, List.getElem?_eq_none (not_lt.mp hk), Option.getD_none, if_neg hk]
      split_ifs <;> first | rfl | omega
  have hfree : (Count ≤ pfnArraySize ∧
      ∀ k < Count, zero (fill ctx.PfnArray batch.Pfn) Count batch.Pfn.length k ≠ 0) ↔
      ∀ k < Count, fill ctx.PfnArray batch.Pfn k ≠ 0 := by
    refine (and_iff_right (hle.trans hsize)).trans (forall₂_congr fun k hk => ?_)
    rw [zero, if_neg (by omega)]
  simp only [← hCount, pfns_fill, Prod.mk.injEq] at heq
  obtain ⟨rfl, rfl⟩ := heq
  simp only [Prod.mk.injEq] at hrest
  obtain ⟨-, rfl, rfl⟩ := hrest
  obtain ⟨put, hput⟩ : ∃ put, put = putAll batch.puts Count S (batch.Pfn.drop Count) := ⟨_, rfl⟩
  have hsucceeded : put.2 = (batch.outcome batch.Pfn.length).succeeded := by
    rw [hput]
    refine Bool.eq_iff_iff.mpr ((rangeSetAll_snd _ _ _ _ _).trans ?_)
    rw [List.length_drop, Nat.add_sub_cancel' hle, hCount]
    exact decide_eq_true_iff.symm
  rw [← hput]
  refine ⟨S, failed, put.1, rfl, hle, hpop, fun h => ?_, ?_⟩
  · rw [← hsucceeded, hput] at h
    rw [hput]
    exact putAll_spec h
  · simp only [balloonFreePfnArray, Context.assert, Context.mk.injEq, true_and, and_true]
    refine ⟨funext fun k => congrFun harray k, ?_⟩
    rw [Bool.eq_iff_iff]
    simp only [Bool.and_eq_true_iff, decide_eq_true_iff, hfree, Bool.not_eq_true', hsucceeded]
    simp only [ne_eq, hpos, hsize, not_false_eq_true, true_and]

/-- **A round of `BalloonDeflate`**: as long as all assertions have held, there are enough pages in the range
set. -/
theorem deflateBatch_spec {ctx ctx' : Context} {batch : DeflateBatch} {status : Status} {Freed : ℕ}
    (hpos : ThisTime ≠ 0) (hsize : ThisTime ≤ pfnArraySize)
    (hcard : ctx.asserts = true → ThisTime ≤ ctx.RangeSet.card)
    (h : deflateBatch ctx ThisTime batch = some (status, Freed, ctx')) :
    Freed ≤ ThisTime ∧ Did ctx ctx' (batch.outcome ThisTime) ∧
      (ctx'.asserts = true → ctx'.RangeSet.card + Freed = ctx.RangeSet.card) := by
  obtain ⟨S, failed, RangeSet, rfl, hle, hpop, hRangeSet, rfl⟩ := deflateBatch_eq hpos hsize h
  have hpopped : ctx.asserts = true → failed = false ∧ ctx.RangeSet = S + batch.Pfn :=
    fun htrue => popAll_spec (hcard htrue) hpop
  have hkept : (ctx.asserts && decide (IsZeroMemory ctx.PfnArray batch.Pfn.length) && !failed &&
      (batch.outcome batch.Pfn.length).succeeded &&
      decide (∀ k < Freed, fill ctx.PfnArray batch.Pfn k ≠ 0)) = true →
      ctx.asserts = true ∧ (batch.outcome batch.Pfn.length).succeeded = true := fun htrue => by
    simp only [Bool.and_eq_true_iff] at htrue
    exact ⟨htrue.1.1.1.1, htrue.1.2⟩
  refine ⟨hle, did_of_asserts rfl rfl (fun h => (hkept h).1) (fun hsound htrue => ?_)
    fun hsound htrue hfits hsucceeded => ?_, fun htrue => ?_⟩
  · obtain ⟨hfailed, hS⟩ := hpopped htrue
    have h0 : 0 ∉ batch.Pfn := fun hmem =>
      hsound.nonzero (hS ▸ Multiset.mem_add.mpr (.inr (Multiset.mem_coe.mpr hmem)))
    have hfree : ∀ k < Freed, fill ctx.PfnArray batch.Pfn k ≠ 0 :=
      fun k hk => fill_ne_zero h0 (hk.trans_le hle)
    show (_ && _ && _ && _ && _) = _
    rw [htrue, hfailed, decide_eq_true hfree, Bool.true_and, Bool.not_false, Bool.and_true, Bool.and_true]
    rfl
  · obtain ⟨-, hS⟩ := hpopped htrue
    refine hsound.append rfl hfits (fun k hk => if_neg (not_lt.mpr hk)) (fun k hk _ => if_pos hk)
      (fun hpart => absurd hpart.1 (lt_irrefl 0)) ?_
    show 0 ∉ RangeSet
    rw [hRangeSet hsucceeded]
    intro hmem
    refine hsound.nonzero ?_
    rw [hS]
    obtain hmem | hmem := Multiset.mem_add.mp hmem
    · exact Multiset.mem_add.mpr (.inl hmem)
    · exact Multiset.mem_add.mpr (.inr (List.mem_of_mem_drop hmem))
  · obtain ⟨hbefore, hsucceeded⟩ := hkept htrue
    obtain ⟨-, hS⟩ := hpopped hbefore
    show RangeSet.card + Freed = _
    rw [hRangeSet hsucceeded, hS, Multiset.card_add, Multiset.card_add, Multiset.coe_card, Multiset.coe_card,
      List.length_drop]
    omega

/-! ## The free build -/

section FreeBuild

/-- The outcomes as `XenBus.Balloon.Model` has them, where each `Get` and each `Put` of
`BalloonPopulatePfnArray` succeeds. -/
def InflateBatch.inFreeBuild (batch : InflateBatch) : Balloon.InflateBatch :=
  ⟨batch.Pfn, batch.Slow, batch.puts, batch.decreased⟩

def DeflateBatch.inFreeBuild (batch : DeflateBatch) : Balloon.DeflateBatch := ⟨batch.Pfn, batch.populated⟩

/-- The contexts of the two models agree. -/
structure Same (ctx : Balloon.Context) (ctx' : Context) : Prop where
  size : ctx.Size = ctx'.Size
  array : ctx.PfnArray = ctx'.PfnArray
  rangeSet : ctx.RangeSet = ctx'.RangeSet
  inflation : ctx.Inflation = ctx'.Inflation
  deflation : ctx.Deflation = ctx'.Deflation

variable {Count : ℕ} {status : Status} {ctx₁ ctx₂ : Balloon.Context}

/-- `BalloonReleasePfnArray` without assertions. -/
theorem free_release (ctx : Balloon.Context) (batch : InflateBatch) :
    ∃ ctx', Balloon.balloonReleasePfnArray ctx batch.Pfn.length batch.puts batch.decreased =
        (batch.Released, ctx') ∧ ctx'.Size = ctx.Size ∧
      ctx'.PfnArray = zero ctx.PfnArray 0 batch.Released ∧
      ctx'.RangeSet = ctx.RangeSet + pfns ctx.PfnArray batch.Released ∧
      ctx'.Inflation = ctx.Inflation ∧ ctx'.Deflation = ctx.Deflation := by
  have hput : batch.Released ≤ batch.Put := processed_le _ _
  rw [Balloon.balloonReleasePfnArray]
  by_cases hzero : batch.Pfn.length = 0
  · have hReleased : batch.Released = 0 := Nat.le_zero.mp (hzero ▸ batch.released_le)
    rw [if_pos hzero, hReleased]
    refine ⟨ctx, rfl, rfl, ?_, (add_zero _).symm, rfl, rfl⟩
    funext k
    rw [zero, if_neg (by omega)]
  · rw [if_neg hzero]
    refine ⟨_, rfl, rfl, rfl, ?_, rfl, rfl⟩
    show ctx.RangeSet + (pfns ctx.PfnArray batch.Put : Multiset ℕ) -
      ((pfns ctx.PfnArray batch.Put).drop batch.Released : List ℕ) = _
    rw [← List.take_append_drop batch.Released (pfns ctx.PfnArray batch.Put), ← Multiset.coe_add, ← add_assoc,
      List.take_append_drop, Multiset.add_sub_cancel_right, take_pfns _ hput]

/-- **A round of `BalloonInflate` does the same in both builds**, as long as each `Get` succeeds. -/
theorem Same.inflateBatch {batch : InflateBatch} (h : Same ctx₁ ctx)
    (hsucceeded : (batch.outcome ThisTime).succeeded = true) (hsize : ThisTime ≤ pfnArraySize)
    (hbatch : Balloon.inflateBatch ctx₁ ThisTime batch.inFreeBuild = some (status, Count, ctx₂)) :
    ∃ ctx', inflateBatch ctx ThisTime batch = (status, Count, ctx') ∧ Same ctx₂ ctx' := by
  obtain ⟨ctx₃, halloc, hrest⟩ := Option.map_eq_some_iff.mp hbatch
  rw [Balloon.balloonAllocatePfnArray] at halloc
  split_ifs at halloc with hpages
  obtain rfl := Option.some.inj halloc
  have hlength : batch.Pfn.length ≤ pfnArraySize := hpages.1.trans hsize
  obtain ⟨ctx₃, hfree, hSize, harray, hset, hInflation, hDeflation⟩ := free_release { ctx₁ with
    PfnArray := balloonSort (fill ctx₁.PfnArray batch.Pfn) batch.Pfn.length
    taken := ctx₁.taken + batch.Pfn } batch
  obtain ⟨RangeSet, hrelease, hRangeSet⟩ :=
    release_spec (balloonAllocatePfnArray ctx ThisTime batch.Pfn) batch ThisTime hlength
  have harr : (balloonAllocatePfnArray ctx ThisTime batch.Pfn).PfnArray =
      balloonSort (fill ctx₁.PfnArray batch.Pfn) batch.Pfn.length := by
    rw [h.array]
    rfl
  have hRangeSet' : ctx₃.RangeSet = RangeSet := by
    rw [hset, hRangeSet hsucceeded, harr]
    exact congrArg (· + _) h.rangeSet
  rw [harr] at hrelease
  simp only [InflateBatch.inFreeBuild, hfree] at hrest
  simp only [Scratch.inflateBatch, hrelease]
  by_cases hlt : batch.Released < batch.Pfn.length
  · simp only [if_pos hlt, Prod.mk.injEq] at hrest ⊢
    obtain ⟨rfl, rfl, rfl⟩ := hrest
    refine ⟨_, ⟨rfl, rfl, rfl⟩, hSize.trans h.size, ?_, hRangeSet', hInflation.trans h.inflation,
      hDeflation.trans h.deflation⟩
    show zero _ 0 _ = zero _ 0 _
    rw [harray]
    rfl
  · simp only [if_neg hlt, Prod.mk.injEq] at hrest ⊢
    obtain ⟨rfl, rfl, rfl⟩ := hrest
    exact ⟨_, ⟨rfl, rfl, rfl⟩, hSize.trans h.size, harray, hRangeSet', hInflation.trans h.inflation,
      hDeflation.trans h.deflation⟩

/-- **A round of `BalloonDeflate`** in the same way, as long as each `Put` succeeds. -/
theorem Same.deflateBatch {batch : DeflateBatch} (h : Same ctx₁ ctx)
    (hsucceeded : (batch.outcome ThisTime).succeeded = true)
    (hbatch : Balloon.deflateBatch ctx₁ ThisTime batch.inFreeBuild = some (status, Count, ctx₂)) :
    ∃ ctx', deflateBatch ctx ThisTime batch = some (status, Count, ctx') ∧ Same ctx₂ ctx' := by
  obtain ⟨⟨Populated, ctx₃⟩, hpopulate, hrest⟩ := Option.map_eq_some_iff.mp hbatch
  rw [Balloon.balloonPopulatePfnArray] at hpopulate
  split_ifs at hpopulate with hlength
  obtain ⟨⟨S, failed⟩, hpop, heq⟩ := Option.map_eq_some_iff.mp hpopulate
  have hle : processed ThisTime batch.populated ≤ ThisTime := processed_le _ _
  have hreturned : (putAll batch.puts (processed ThisTime batch.populated) S
      ((pfns (fill ctx.PfnArray batch.Pfn) ThisTime).drop (processed ThisTime batch.populated))).1 =
      S + ((pfns (fill ctx.PfnArray batch.Pfn) ThisTime).drop (processed ThisTime batch.populated) :
        Multiset ℕ) := by
    refine putAll_spec ((rangeSetAll_snd _ _ _ _ _).mpr ?_)
    rw [List.length_drop, length_pfns, Nat.add_sub_cancel' hle]
    exact of_decide_eq_true hsucceeded
  simp only [DeflateBatch.inFreeBuild, h.array, Prod.mk.injEq] at heq hrest
  obtain ⟨rfl, rfl⟩ := heq
  obtain ⟨rfl, rfl, rfl⟩ := hrest
  have hlength' : batch.Pfn.length = ThisTime := hlength
  have hpop' : popAll ctx.RangeSet batch.Pfn = some (S, failed) := h.rangeSet ▸ hpop
  rw [Scratch.deflateBatch, Scratch.balloonPopulatePfnArray, if_pos hlength', hpop']
  simp only [Option.map_some]
  exact ⟨_, rfl, h.size, rfl, hreturned.symm, h.inflation, h.deflation⟩

end FreeBuild

/-! ## The invariant -/

/-- The size and the number of pages in the range set. -/
def Sized (Size card : ℕ) : Phase → Prop
  | .idle => Size = card ∧ Size < 18446744073709551616
  | .adjusting target _ => Size = card ∧ Size < 18446744073709551616 ∧ target < 18446744073709551616
  | .inflating target Requested Count _ =>
    card = Size + Count ∧ Count ≤ Requested ∧ Size + Requested = target ∧ target < 18446744073709551616
  | .deflating target Requested Count _ =>
    card + Count = Size ∧ Count ≤ Requested ∧ target + Requested = Size ∧ Size < 18446744073709551616

section

variable {Size card card' target Requested Count n : ℕ} {status status' : Status}

theorem Sized.released (h : Sized Size card (.inflating target Requested Count status))
    (hn : n ≤ Requested - Count) (hcard : card' = card + n) :
    Sized Size card' (.inflating target Requested (Count + n) status') := by
  obtain ⟨hsum, hle, htarget⟩ := h
  exact ⟨by omega, by omega, htarget⟩

theorem Sized.inflated (h : Sized Size card (.inflating target Requested Count status)) :
    Sized (ulong64 (Size + Count)) card (.adjusting target status) := by
  obtain ⟨hsum, hle, htarget, hsmall⟩ := h
  have hsize : (ulong64 (Size + Count) : ℤ) = Size + Count := ulong64_of_mem (by omega) (by omega)
  exact ⟨by omega, by omega, hsmall⟩

theorem Sized.freed (h : Sized Size card (.deflating target Requested Count status))
    (hn : n ≤ Requested - Count) (hcard : card' + n = card) :
    Sized Size card' (.deflating target Requested (Count + n) status') := by
  obtain ⟨hsum, hle, htarget⟩ := h
  exact ⟨by omega, by omega, htarget⟩

theorem Sized.deflated (h : Sized Size card (.deflating target Requested Count status)) :
    Sized (ulong64 (Size - Count)) card (.adjusting target status) := by
  obtain ⟨hsum, hle, htarget, hsmall⟩ := h
  have hsize : (ulong64 (Size - Count) : ℤ) = Size - Count := ulong64_of_mem (by omega) (by omega)
  exact ⟨by omega, by omega, by omega⟩

/-- There are enough pages in the range set for the rest of the request. -/
theorem Sized.enough (h : Sized Size card (.deflating target Requested Count status)) :
    Requested - Count ≤ card := by
  obtain ⟨hsum, hle, htarget, -⟩ := h
  omega

end

/-- **The invariant.** -/
structure Inv (s : State) : Prop where
  asserts : s.ctx.asserts = true ↔ Clean s.ctx.batches
  sound : s.ctx.asserts = true → Sound s.ctx
  sized : s.ctx.asserts = true → Sized s.ctx.Size s.ctx.RangeSet.card s.phase

variable {s t : State}

theorem Inv.batch (h : Inv s) {ctx' : Context} {b : Batch} {phase : Phase} (hdid : Did s.ctx ctx' b)
    (hsized : ctx'.asserts = true → Sized ctx'.Size ctx'.RangeSet.card phase) : Inv ⟨ctx', phase⟩ := by
  refine ⟨?_, fun htrue => hdid.sound (h.sound (hdid.kept htrue)) htrue, hsized⟩
  show ctx'.asserts = true ↔ Clean ctx'.batches
  rw [hdid.batches, clean_append]
  constructor
  · intro htrue
    have hbefore := hdid.kept htrue
    exact ⟨h.asserts.mp hbefore, (hdid.asserts (h.sound hbefore) hbefore).mp htrue⟩
  · rintro ⟨hclean, hlast⟩
    have hbefore := h.asserts.mpr hclean
    exact (hdid.asserts (h.sound hbefore) hbefore).mpr hlast

/-- Between the batches, only the size and the FIST entries change. -/
theorem Inv.between (h : Inv s) (Size : ℕ) (Inflation Deflation : Bool) {phase : Phase}
    (hsized : Sized s.ctx.Size s.ctx.RangeSet.card s.phase → Sized Size s.ctx.RangeSet.card phase) :
    Inv ⟨{ s.ctx with
      Size := Size
      Inflation := Inflation
      Deflation := Deflation }, phase⟩ := by
  refine ⟨h.asserts, fun htrue => ?_, fun htrue => hsized (h.sized htrue)⟩
  obtain ⟨hzero, hstale, hnonzero⟩ := h.sound htrue
  exact ⟨hzero, hstale, hnonzero⟩

theorem Inv.step {e : Event} (h : Inv s) (hstep : Scratch.step s e = some t) : Inv t := by
  obtain ⟨ctx, phase⟩ := s
  cases e with
  | adjust Size Inflation Deflation =>
    obtain ⟨⟨rfl, hlt⟩, hstep⟩ := Option.ite_none_right_eq_some.mp hstep
    obtain rfl := Option.some.inj hstep
    exact h.between _ _ _ fun hsized => ⟨hsized.1, hsized.2, hlt⟩
  | inflate LowMemory =>
    simp only [Scratch.step] at hstep
    split at hstep
    case h_2 => cases hstep
    case h_1 _ target =>
      obtain ⟨hlt, hstep⟩ := Option.ite_none_right_eq_some.mp hstep
      obtain rfl := Option.some.inj hstep
      refine h.between ctx.Size ctx.Inflation ctx.Deflation fun hsized => ?_
      obtain ⟨hcard, hsmall, htarget⟩ := hsized
      split_ifs
      · exact ⟨hcard, hsmall, htarget⟩
      · exact ⟨hcard, hsmall, htarget⟩
      · exact ⟨hcard.symm, Nat.zero_le _, by omega, htarget⟩
  | inflateBatch batch =>
    simp only [Scratch.step] at hstep
    split at hstep
    case h_2 => cases hstep
    case h_1 _ target Requested Count =>
      obtain ⟨⟨hlt, hlength, -, h0⟩, hstep⟩ := Option.ite_none_right_eq_some.mp hstep
      obtain ⟨status, ctx', heq, hdid, hcard'⟩ :=
        inflateBatch_spec ctx batch (by rw [pfnArraySize]; omega) (min_le_right _ _) hlength h0
      rw [heq] at hstep
      obtain rfl := Option.some.inj hstep
      refine h.batch hdid fun htrue => ?_
      have hsized : Sized ctx.Size ctx.RangeSet.card _ := h.sized (hdid.kept htrue)
      rw [hdid.size]
      exact hsized.released ((batch.released_le.trans hlength).trans (min_le_left _ _)) (hcard' htrue)
  | inflated =>
    simp only [Scratch.step] at hstep
    split at hstep
    case h_2 => cases hstep
    case h_1 _ target Requested Count status =>
      split_ifs at hstep
      obtain rfl := Option.some.inj hstep
      exact h.between _ ctx.Inflation ctx.Deflation Sized.inflated
  | deflate =>
    simp only [Scratch.step] at hstep
    split at hstep
    case h_2 => cases hstep
    case h_1 _ target =>
      obtain ⟨hlt, hstep⟩ := Option.ite_none_right_eq_some.mp hstep
      obtain rfl := Option.some.inj hstep
      refine h.between ctx.Size ctx.Inflation ctx.Deflation fun hsized => ?_
      obtain ⟨hcard, hsmall, htarget⟩ := hsized
      split_ifs
      · exact ⟨hcard, hsmall, htarget⟩
      · exact ⟨hcard.symm, Nat.zero_le _, by omega, hsmall⟩
  | deflateBatch batch =>
    simp only [Scratch.step] at hstep
    split at hstep
    case h_2 => cases hstep
    case h_1 _ target Requested Count =>
      obtain ⟨hlt, hstep⟩ := Option.ite_none_right_eq_some.mp hstep
      obtain ⟨⟨status, Freed, ctx'⟩, heq, rfl⟩ := Option.map_eq_some_iff.mp hstep
      have henough : ctx.asserts = true → min (Requested - Count) pfnArraySize ≤ ctx.RangeSet.card :=
        fun htrue => (min_le_left _ _).trans (Sized.enough (h.sized htrue))
      obtain ⟨hfreed, hdid, hcard'⟩ :=
        deflateBatch_spec (by rw [pfnArraySize]; omega) (min_le_right _ _) henough heq
      refine h.batch hdid fun htrue => ?_
      have hsized : Sized ctx.Size ctx.RangeSet.card _ := h.sized (hdid.kept htrue)
      rw [hdid.size]
      exact hsized.freed (hfreed.trans (min_le_left _ _)) (hcard' htrue)
  | deflated =>
    simp only [Scratch.step] at hstep
    split at hstep
    case h_2 => cases hstep
    case h_1 _ target Requested Count status =>
      split_ifs at hstep
      obtain rfl := Option.some.inj hstep
      exact h.between _ ctx.Inflation ctx.Deflation Sized.deflated
  | «return» =>
    simp only [Scratch.step] at hstep
    split at hstep
    case h_2 => cases hstep
    case h_1 _ target status =>
      split_ifs at hstep
      obtain rfl := Option.some.inj hstep
      exact h.between ctx.Size ctx.Inflation ctx.Deflation fun hsized => ⟨hsized.1, hsized.2.1⟩

theorem inv_init : Inv init := by
  refine ⟨iff_of_true rfl ⟨List.Pairwise.nil, fun b hb => absurd hb List.not_mem_nil⟩, fun _ => ?_,
    fun _ => ⟨rfl, by decide⟩⟩
  exact ⟨fun _ _ => rfl, fun b hb => absurd hb List.not_mem_nil, Multiset.notMem_zero 0⟩

/-- **The assertions hold** as long as no batch is larger than what is left at zero and each `Put` and `Get`
that is asserted to succeed does, and no longer. -/
theorem asserts_iff_clean (h : Reaches step Free init s) :
    s.ctx.asserts = true ↔ Clean s.ctx.batches :=
  (h.invariant inv_init fun _ _ _ hinv _ hs => hinv.step hs).asserts

/-- All four pages are released, and two of them are populated again. -/
def fullRelease : List Event :=
  [.adjust 4 false false, .inflate false,
    .inflateBatch ⟨[7, 5, 8, 6], false, 4, some 4, fun _ => true⟩, .inflated, .return,
    .adjust 2 false false, .deflate, .deflateBatch ⟨[5, 7], some 2, fun _ => true⟩, .deflated, .return]

theorem asserts_of_fullRelease : ∃ s, Reaches step Free init s ∧ s.ctx.asserts = true ∧
    s.ctx.batches = [⟨4, 4, 4, true⟩, ⟨2, 0, 0, true⟩] := by
  obtain ⟨s, hs, hend⟩ := (Option.any_eq_true
    (fun s : State => decide (s.ctx.batches = [⟨4, 4, 4, true⟩, ⟨2, 0, 0, true⟩]))
    (run step init fullRelease)).mp (by decide +kernel)
  have h := reaches_of_run hs
  have hbatches := of_decide_eq_true hend
  refine ⟨s, h, (asserts_iff_clean h).mpr ?_, hbatches⟩
  rw [hbatches]
  exact ⟨by simp [Batch.Partial], by simp⟩

/-- Three of four pages are released; the next call of `BalloonAdjust` asks for four. -/
def partialRelease : List Event :=
  [.adjust 4 false false, .inflate false,
    .inflateBatch ⟨[7, 5, 8, 6], false, 4, some 3, fun _ => true⟩,
    .inflateBatch ⟨[9], false, 1, some 1, fun _ => true⟩, .inflated, .return,
    .adjust 8 false false, .inflate false]

/-- The last page of the first batch is still in the array when `BalloonAllocatePfnArray` is entered. -/
theorem stale_entries : ∃ s t, Reaches step Free init s ∧ s.ctx.asserts = true ∧
    s.phase = .inflating 8 4 0 .success ∧ ¬ IsZeroMemory s.ctx.PfnArray 4 ∧
    step s (.inflateBatch ⟨[10, 11, 12, 13], false, 4, some 4, fun _ => true⟩) = some t ∧
    t.ctx.asserts = false := by
  obtain ⟨s, hs, hend⟩ := (Option.any_eq_true (fun s : State => decide (s.ctx.asserts = true ∧
      s.phase = .inflating 8 4 0 .success ∧ ¬ IsZeroMemory s.ctx.PfnArray 4 ∧
      (step s (.inflateBatch ⟨[10, 11, 12, 13], false, 4, some 4, fun _ => true⟩)).any
        (fun t => t.ctx.asserts = false) = true)) (run step init partialRelease)).mp (by decide +kernel)
  obtain ⟨hasserts, hphase, hstale, hlast⟩ := of_decide_eq_true hend
  obtain ⟨t, ht, hfails⟩ := (Option.any_eq_true _ _).mp hlast
  exact ⟨s, t, reaches_of_run hs, hasserts, hphase, hstale, ht, of_decide_eq_true hfails⟩

end XenBus.Balloon.Scratch
