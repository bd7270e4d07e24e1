import XenBus.Balloon.Model

/-!
# The balloon's accounts

Between two batches the range set holds the pages that Xen has, and every page that has been taken from
the guest has been handed back, or Xen has it (`Balanced`). A batch keeps the balance whatever its
outcomes are, and moves as many pages as it counts (`inflateBatch_spec`, `deflateBatch_spec`); so `Size`
is the number of items in the range set whenever `BalloonInflate` or `BalloonDeflate` returns
(`pages_accounted_of_reaches`).
-/

namespace XenBus.Balloon

open MachineInt Transition

/-- **The balance.** -/
structure Balanced (ctx : Context) : Prop where
  rangeSet : ctx.RangeSet = ctx.given
  nodup : ctx.given.Nodup
  balance : ctx.taken = ctx.freed + ctx.given
  popped : ctx.popFailed = false

/-- What a batch does: `n` pages move, the balance is kept, and `Size` is left to the caller. -/
structure Keeps (ctx ctx' : Context) : Prop where
  balanced : Balanced ctx'
  size : ctx'.Size = ctx.Size

theorem processed_le (Requested : ℕ) (n : Option ℕ) : processed Requested n ≤ Requested := by
  cases n with
  | none => exact Nat.zero_le _
  | some n => exact min_le_right _ _

theorem pfns_fill (arr : PfnArray) (Pfn : List ℕ) : pfns (fill arr Pfn) Pfn.length = Pfn := by
  unfold pfns
  apply List.ext_getElem
  · rw [List.length_map, List.length_range]
  · intro k hk hk'
    rw [List.getElem_map, List.getElem_range, fill, List.getElem?_eq_getElem hk', Option.getD_some]

/-- The entries from `m` on. -/
theorem drop_pfns (Pfn : PfnArray) (m n : ℕ) :
    (pfns Pfn (m + n)).drop m = pfns (fun k => Pfn (m + k)) n := by
  rw [pfns_add, List.drop_left' (length_pfns _ _)]

/-- `BalloonFreePfnArray` hands back the entries of the array. -/
theorem balloonFreePfnArray_freed (ctx : Context) (Requested : ℕ) :
    (balloonFreePfnArray ctx Requested).freed = ctx.freed + (pfns ctx.PfnArray Requested : Multiset ℕ) := by
  show ctx.freed + (pages _ : Multiset ℕ) = _
  rw [pages_balloonFreePages ctx.PfnArray (Nat.le_add_left _ _), List.drop_zero]

/-! ## Inflation -/

/-- Within a round, the driver holds the pages `held`. -/
structure Holding (ctx : Context) (held : List ℕ) : Prop where
  rangeSet : ctx.RangeSet = ctx.given
  nodup : (ctx.given + held).Nodup
  balance : ctx.taken = ctx.freed + ctx.given + held
  popped : ctx.popFailed = false

theorem balanced_of_holding {ctx : Context} (h : Holding ctx []) : Balanced ctx := by
  refine ⟨h.rangeSet, ?_, ?_, h.popped⟩
  · simpa using h.nodup
  · simpa using h.balance

/-- The pages that `BalloonAllocatePfnArray` takes are held in the array. -/
theorem balloonAllocatePfnArray_spec {ctx ctx' : Context} {Requested : ℕ} {Pfn : List ℕ}
    (h : Balanced ctx) (halloc : balloonAllocatePfnArray ctx Requested Pfn = some ctx') :
    Pfn.length ≤ Requested ∧ Holding ctx' (pfns ctx'.PfnArray Pfn.length) ∧
      ctx'.Size = ctx.Size ∧ ctx'.given = ctx.given := by
  rw [balloonAllocatePfnArray] at halloc
  split_ifs at halloc with hpages
  obtain ⟨hlength, hnodup, hguest⟩ := hpages
  obtain rfl := Option.some.inj halloc
  have hperm : (pfns (balloonSort (fill ctx.PfnArray Pfn) Pfn.length) Pfn.length : Multiset ℕ) =
      Pfn := by
    rw [Multiset.coe_eq_coe]
    exact (balloonSort_perm _ _).trans (by rw [pfns_fill])
  refine ⟨hlength, ⟨h.rangeSet, ?_, ?_, h.popped⟩, rfl, rfl⟩
  · show (ctx.given + (pfns _ _ : Multiset ℕ)).Nodup
    rw [hperm, Multiset.nodup_add]
    refine ⟨h.nodup, Multiset.coe_nodup.mpr hnodup, ?_⟩
    -- Xen has no page that is in use by the guest
    rw [Multiset.disjoint_left]
    intro p hgiven hp
    have hcount := hguest p (Multiset.mem_coe.mp hp)
    rw [h.balance, Multiset.count_add] at hcount
    have hpos := Multiset.count_pos.mpr hgiven
    omega
  · show ctx.taken + (Pfn : Multiset ℕ) = ctx.freed + ctx.given + (pfns _ _ : Multiset ℕ)
    rw [hperm, h.balance]

/-- The pages that `BalloonReleasePfnArray` releases are the first ones held. -/
theorem balloonReleasePfnArray_spec {ctx : Context} {Requested : ℕ} (puts : ℕ)
    (decreased : Option ℕ) (h : Holding ctx (pfns ctx.PfnArray Requested)) :
    ∃ Count ctx', balloonReleasePfnArray ctx Requested puts decreased = (Count, ctx') ∧
      Count ≤ Requested ∧ Holding ctx' ((pfns ctx.PfnArray Requested).drop Count) ∧
      (∀ k, Count ≤ k → ctx'.PfnArray k = ctx.PfnArray k) ∧ ctx'.Size = ctx.Size ∧
      ctx'.given.card = ctx.given.card + Count := by
  rw [balloonReleasePfnArray]
  split_ifs with hzero
  · exact ⟨0, ctx, rfl, Nat.zero_le _, h, fun _ _ => rfl, rfl, rfl⟩
  · have hput : min puts Requested ≤ Requested := min_le_right _ _
    have hcount := processed_le (min puts Requested) decreased
    refine ⟨_, _, rfl, hcount.trans hput, ⟨?_, ?_, ?_, h.popped⟩, ?_, rfl, ?_⟩
    · show ctx.RangeSet + (pfns ctx.PfnArray (min puts Requested) : Multiset ℕ) -
        ((pfns ctx.PfnArray (min puts Requested)).drop _ : List ℕ) = ctx.given + (pfns _ _ : Multiset ℕ)
      rw [← List.take_append_drop (processed (min puts Requested) decreased)
        (pfns ctx.PfnArray (min puts Requested)), ← Multiset.coe_add, ← add_assoc,
        List.take_append_drop, Multiset.add_sub_cancel_right, take_pfns _ hcount, h.rangeSet]
    · show (ctx.given + (pfns _ _ : Multiset ℕ) + _).Nodup
      rw [← take_pfns ctx.PfnArray (hcount.trans hput), add_assoc, Multiset.coe_add,
        List.take_append_drop]
      exact h.nodup
    · show ctx.taken = ctx.freed + (ctx.given + (pfns _ _ : Multiset ℕ)) + _
      rw [← take_pfns ctx.PfnArray (hcount.trans hput), ← add_assoc, add_assoc _ (_ : Multiset ℕ),
        Multiset.coe_add, List.take_append_drop]
      exact h.balance
    · intro k hk
      show zero ctx.PfnArray 0 _ k = ctx.PfnArray k
      rw [zero, if_neg (by omega)]
    · show (ctx.given + (pfns _ _ : Multiset ℕ)).card = _
      rw [Multiset.card_add, Multiset.coe_card, length_pfns]

/-- **A round of `BalloonInflate`.** -/
theorem inflateBatch_spec {ctx ctx' : Context} {ThisTime Released : ℕ} {batch : InflateBatch}
    {status : Status} (h : Balanced ctx)
    (hbatch : inflateBatch ctx ThisTime batch = some (status, Released, ctx')) :
    Keeps ctx ctx' ∧ Released ≤ ThisTime ∧ ctx'.given.card = ctx.given.card + Released := by
  obtain ⟨ctx₁, halloc, hrest⟩ := Option.map_eq_some_iff.mp hbatch
  obtain ⟨hlength, hholding, hsize₁, hgiven₁⟩ := balloonAllocatePfnArray_spec h halloc
  obtain ⟨Count, ctx₂, hrelease, hcount, hheld, harr, hsize₂, hcard⟩ :=
    balloonReleasePfnArray_spec batch.puts batch.decreased hholding
  simp only [hrelease, Prod.mk.injEq] at hrest
  obtain ⟨-, rfl, rfl⟩ := hrest
  have hkept : ctx₂.Size = ctx.Size := hsize₂.trans hsize₁
  have hgiven : ctx₂.given.card = ctx.given.card + Count := by rw [hcard, hgiven₁]
  by_cases hlt : Count < batch.Pfn.length
  · rw [if_pos hlt]
    refine ⟨⟨⟨hheld.rangeSet, ?_, ?_, hheld.popped⟩, hkept⟩, hcount.trans hlength, hgiven⟩
    · exact (Multiset.nodup_add.mp hheld.nodup).1
    · -- the pages that were not released are handed back
      have hmoved : pfns (fun k => if k < batch.Pfn.length - Count then ctx₂.PfnArray (Count + k)
          else ctx₂.PfnArray k) (batch.Pfn.length - Count) =
          (pfns ctx₁.PfnArray batch.Pfn.length).drop Count := by
        obtain ⟨n, hn⟩ := Nat.exists_eq_add_of_le hcount
        rw [hn, Nat.add_sub_cancel_left, drop_pfns]
        refine pfns_congr fun k hk => ?_
        rw [if_pos hk, harr _ (Nat.le_add_right _ _)]
      rw [balloonFreePfnArray_freed, hmoved]
      show ctx₂.taken = ctx₂.freed + (_ : Multiset ℕ) + ctx₂.given
      rw [hheld.balance, add_assoc, add_assoc, add_comm ctx₂.given]
  · rw [if_neg hlt]
    rw [List.drop_of_length_le (by rw [length_pfns]; omega)] at hheld
    exact ⟨⟨balanced_of_holding hheld, hkept⟩, hcount.trans hlength, hgiven⟩

/-- **The loop of `BalloonInflate`** counts the pages that Xen gets. -/
theorem inflateLoop_spec {Requested : ℕ} {batches : List InflateBatch} {Count Count' : ℕ}
    {status status' : Status} {ctx ctx' : Context} (h : Balanced ctx) (hCount : Count ≤ Requested)
    (hloop : inflateLoop Requested batches Count status ctx = some (status', Count', ctx')) :
    Keeps ctx ctx' ∧ Count ≤ Count' ∧ Count' ≤ Requested ∧
      ctx'.given.card + Count = ctx.given.card + Count' := by
  have hdone : some (status, Count, ctx) = some (status', Count', ctx') →
      Keeps ctx ctx' ∧ Count ≤ Count' ∧ Count' ≤ Requested ∧
        ctx'.given.card + Count = ctx.given.card + Count' := by
    rintro ⟨⟩
    exact ⟨⟨h, rfl⟩, le_rfl, hCount, rfl⟩
  induction batches generalizing Count status ctx with
  | nil =>
    rw [inflateLoop] at hloop
    split_ifs at hloop
    exact hdone hloop
  | cons batch batches ih =>
    rw [inflateLoop] at hloop
    split_ifs at hloop with hmore
    · obtain ⟨⟨status₁, Released, ctx₁⟩, hbatch, hrest⟩ := Option.bind_eq_some_iff.mp hloop
      obtain ⟨hkeeps, hreleased, hcard⟩ := inflateBatch_spec h hbatch
      have hle := min_le_left (Requested - Count) pfnArraySize
      obtain ⟨hkeeps', hlo, hhi, hcard'⟩ := ih hkeeps.balanced (by omega) hrest (by
        rintro ⟨⟩
        exact ⟨⟨hkeeps.balanced, rfl⟩, le_rfl, by omega, rfl⟩)
      exact ⟨⟨hkeeps'.balanced, hkeeps'.size.trans hkeeps.size⟩, by omega, hhi, by omega⟩
    · exact hdone hloop

/-! ## Deflation -/

/-- The items that are popped leave the range set; no `Pop` fails if there are enough. -/
theorem popAll_spec {S S' : Multiset ℕ} {Pfn : List ℕ} {failed : Bool} (hcard : Pfn.length ≤ S.card)
    (h : popAll S Pfn = some (S', failed)) : failed = false ∧ S = S' + Pfn := by
  induction Pfn generalizing S with
  | nil =>
    obtain ⟨rfl, rfl⟩ : S = S' ∧ false = failed := by simpa [popAll] using h
    exact ⟨rfl, (add_zero _).symm⟩
  | cons p Pfn ih =>
    rw [List.length_cons] at hcard
    rw [popAll] at h
    split_ifs at h with hempty hmem
    · rw [hempty, Multiset.card_zero] at hcard
      omega
    · have herase := Multiset.card_erase_add_one hmem
      obtain ⟨hfailed, hS⟩ := ih (by omega) h
      refine ⟨hfailed, ?_⟩
      rw [← Multiset.cons_erase hmem, hS, ← Multiset.cons_coe, Multiset.add_cons]

/-- **A round of `BalloonDeflate`.** -/
theorem deflateBatch_spec {ctx ctx' : Context} {ThisTime Freed : ℕ} {batch : DeflateBatch}
    {status : Status} (h : Balanced ctx) (hcard : ThisTime ≤ ctx.given.card)
    (hbatch : deflateBatch ctx ThisTime batch = some (status, Freed, ctx')) :
    Keeps ctx ctx' ∧ Freed ≤ ThisTime ∧ ctx'.given.card + Freed = ctx.given.card := by
  obtain ⟨⟨Populated, ctx₁⟩, hpopulate, hrest⟩ := Option.map_eq_some_iff.mp hbatch
  rw [balloonPopulatePfnArray] at hpopulate
  split_ifs at hpopulate with hlength
  subst hlength
  obtain ⟨⟨S, failed⟩, hpop, heq⟩ := Option.map_eq_some_iff.mp hpopulate
  obtain ⟨rfl, hS⟩ := popAll_spec (by rw [h.rangeSet]; exact hcard) hpop
  simp only [Prod.mk.injEq] at heq hrest
  obtain ⟨rfl, rfl⟩ := heq
  obtain ⟨-, rfl, rfl⟩ := hrest
  have hcount := processed_le batch.Pfn.length batch.populated
  obtain ⟨Count, hCount⟩ : ∃ n, n = processed batch.Pfn.length batch.populated := ⟨_, rfl⟩
  rw [← hCount] at hcount ⊢
  have harr := pfns_fill ctx.PfnArray batch.Pfn
  have htake : pfns (fill ctx.PfnArray batch.Pfn) Count = batch.Pfn.take Count := by
    rw [← take_pfns _ hcount, harr]
  have hsplit : ctx.given = S + (batch.Pfn.drop Count : Multiset ℕ) +
      (batch.Pfn.take Count : Multiset ℕ) := by
    have hPfn : (batch.Pfn : Multiset ℕ) =
        (batch.Pfn.drop Count : Multiset ℕ) + (batch.Pfn.take Count : Multiset ℕ) := by
      rw [add_comm, Multiset.coe_add, List.take_append_drop]
    rw [← h.rangeSet, hS, hPfn, add_assoc]
  have hgiven : ctx.given - (pfns (fill ctx.PfnArray batch.Pfn) Count : Multiset ℕ) =
      S + (batch.Pfn.drop Count : Multiset ℕ) := by
    rw [htake, hsplit, Multiset.add_sub_cancel_right]
  refine ⟨⟨⟨?_, ?_, ?_, ?_⟩, rfl⟩, hcount, ?_⟩
  · show S + ((pfns _ _).drop Count : Multiset ℕ) = ctx.given - (pfns _ _ : Multiset ℕ)
    rw [hgiven, harr]
  · show (ctx.given - (pfns _ _ : Multiset ℕ)).Nodup
    exact Multiset.nodup_of_le (Multiset.sub_le_self _ _) h.nodup
  · rw [balloonFreePfnArray_freed]
    show ctx.taken = ctx.freed + (pfns (zero (fill ctx.PfnArray batch.Pfn) Count _) Count : Multiset ℕ) +
      (ctx.given - (pfns _ _ : Multiset ℕ))
    have hzero : pfns (zero (fill ctx.PfnArray batch.Pfn) Count batch.Pfn.length) Count =
        batch.Pfn.take Count := by
      rw [← htake]
      refine pfns_congr fun k hk => ?_
      rw [zero, if_neg (by omega)]
    rw [hgiven, hzero, h.balance, hsplit, add_comm (S + _) (_ : Multiset ℕ), ← add_assoc]
  · show (ctx.popFailed || false) = false
    rw [h.popped]
    rfl
  · show (ctx.given - (pfns _ _ : Multiset ℕ)).card + Count = _
    rw [hgiven, hsplit, Multiset.card_add _ (batch.Pfn.take Count : Multiset ℕ), Multiset.coe_card,
      List.length_take, min_eq_left hcount]

/-- **The loop of `BalloonDeflate`** counts the pages that Xen gives back. -/
theorem deflateLoop_spec {Requested : ℕ} {batches : List DeflateBatch} {Count Count' : ℕ}
    {status status' : Status} {ctx ctx' : Context} (h : Balanced ctx) (hCount : Count ≤ Requested)
    (hcard : Requested ≤ ctx.given.card + Count)
    (hloop : deflateLoop Requested batches Count status ctx = some (status', Count', ctx')) :
    Keeps ctx ctx' ∧ Count ≤ Count' ∧ Count' ≤ Requested ∧
      ctx'.given.card + Count' = ctx.given.card + Count := by
  have hdone : some (status, Count, ctx) = some (status', Count', ctx') →
      Keeps ctx ctx' ∧ Count ≤ Count' ∧ Count' ≤ Requested ∧
        ctx'.given.card + Count' = ctx.given.card + Count := by
    rintro ⟨⟩
    exact ⟨⟨h, rfl⟩, le_rfl, hCount, rfl⟩
  induction batches generalizing Count status ctx with
  | nil =>
    rw [deflateLoop] at hloop
    split_ifs at hloop
    exact hdone hloop
  | cons batch batches ih =>
    rw [deflateLoop] at hloop
    split_ifs at hloop with hmore
    · obtain ⟨⟨status₁, Freed, ctx₁⟩, hbatch, hrest⟩ := Option.bind_eq_some_iff.mp hloop
      have hle := min_le_left (Requested - Count) pfnArraySize
      obtain ⟨hkeeps, hfreed, hcard₁⟩ := deflateBatch_spec h (by omega) hbatch
      obtain ⟨hkeeps', hlo, hhi, hcard'⟩ := ih hkeeps.balanced (by omega) (by omega) hrest (by
        rintro ⟨⟩
        exact ⟨⟨hkeeps.balanced, rfl⟩, le_rfl, by omega, rfl⟩)
      exact ⟨⟨hkeeps'.balanced, hkeeps'.size.trans hkeeps.size⟩, by omega, hhi, by omega⟩
    · exact hdone hloop

/-! ## Main results -/

/-- What holds whenever `BalloonInflate` or `BalloonDeflate` returns. -/
structure Accounted (s : State) : Prop where
  /-- The range set is what Xen has. -/
  given : s.ctx.RangeSet = s.ctx.given
  /-- A page has been handed back as often as it has been taken, up to once if Xen has it. -/
  balance : ∀ page, s.ctx.taken.count page =
    s.ctx.freed.count page + if page ∈ s.ctx.given then 1 else 0
  size : s.ctx.Size = s.ctx.RangeSet.card
  popped : s.ctx.popFailed = false
  /-- The size lies between its value at the start of the call and the target. -/
  target : ∀ call ∈ s.call, (call.start ≤ call.target → call.start ≤ s.ctx.Size ∧ s.ctx.Size ≤ call.target) ∧
    (call.target ≤ call.start → call.target ≤ s.ctx.Size ∧ s.ctx.Size ≤ call.start)

/-- **The invariant.** -/
structure Inv (s : State) : Prop where
  balanced : Balanced s.ctx
  size : s.ctx.Size = s.ctx.given.card
  small : s.ctx.Size < 18446744073709551616
  target : ∀ call ∈ s.call, call.target < 18446744073709551616 ∧
    (call.start ≤ s.ctx.Size ∧ s.ctx.Size ≤ call.target ∨
      call.target ≤ s.ctx.Size ∧ s.ctx.Size ≤ call.start)

variable {s t : State}

/-- `BalloonInflate` towards a larger target. -/
theorem balloonInflate_spec {ctx ctx' : Context} {target : ℕ} {LowMemory : Bool}
    {batches : List InflateBatch} {status : Status} (h : Balanced ctx)
    (hsize : ctx.Size = ctx.given.card) (hlt : ctx.Size < target) (htarget : target < 18446744073709551616)
    (hinflate : balloonInflate ctx (target - ctx.Size) LowMemory batches = some (status, ctx')) :
    Balanced ctx' ∧ ctx'.Size = ctx'.given.card ∧ ctx.Size ≤ ctx'.Size ∧ ctx'.Size ≤ target := by
  rw [balloonInflate] at hinflate
  split_ifs at hinflate
  · obtain ⟨rfl, rfl⟩ : status = .unsuccessful ∧ ctx = ctx' := by simpa [eq_comm] using hinflate
    exact ⟨h, hsize, le_rfl, hlt.le⟩
  · obtain ⟨rfl, rfl⟩ : status = .noMemory ∧ ctx = ctx' := by simpa [eq_comm] using hinflate
    exact ⟨h, hsize, le_rfl, hlt.le⟩
  · obtain ⟨⟨status₁, Count, ctx₁⟩, hloop, heq⟩ := Option.map_eq_some_iff.mp hinflate
    obtain ⟨hkeeps, -, hle, hcard⟩ := inflateLoop_spec h (Nat.zero_le _) hloop
    obtain ⟨rfl, rfl⟩ := Prod.mk.inj heq
    have hkept := hkeeps.size
    have hsum : (ulong64 (ctx₁.Size + Count) : ℤ) = ctx₁.Size + Count :=
      ulong64_of_mem (by omega) (by omega)
    have hbalanced := hkeeps.balanced
    refine ⟨⟨hbalanced.rangeSet, hbalanced.nodup, hbalanced.balance, hbalanced.popped⟩, ?_, ?_, ?_⟩
    · show ulong64 (ctx₁.Size + Count) = ctx₁.given.card
      omega
    · show ctx.Size ≤ ulong64 (ctx₁.Size + Count)
      omega
    · show ulong64 (ctx₁.Size + Count) ≤ target
      omega

/-- `BalloonDeflate` towards a smaller target. -/
theorem balloonDeflate_spec {ctx ctx' : Context} {target : ℕ} {batches : List DeflateBatch}
    {status : Status} (h : Balanced ctx) (hsize : ctx.Size = ctx.given.card) (hlt : target < ctx.Size)
    (hsmall : ctx.Size < 18446744073709551616)
    (hdeflate : balloonDeflate ctx (ctx.Size - target) batches = some (status, ctx')) :
    Balanced ctx' ∧ ctx'.Size = ctx'.given.card ∧ target ≤ ctx'.Size ∧ ctx'.Size ≤ ctx.Size := by
  rw [balloonDeflate] at hdeflate
  split_ifs at hdeflate
  · obtain ⟨rfl, rfl⟩ : status = .unsuccessful ∧ ctx = ctx' := by simpa [eq_comm] using hdeflate
    exact ⟨h, hsize, hlt.le, le_rfl⟩
  · obtain ⟨⟨status₁, Count, ctx₁⟩, hloop, heq⟩ := Option.map_eq_some_iff.mp hdeflate
    obtain ⟨hkeeps, -, hle, hcard⟩ := deflateLoop_spec h (Nat.zero_le _) (by omega) hloop
    obtain ⟨rfl, rfl⟩ := Prod.mk.inj heq
    have hkept := hkeeps.size
    have hdiff : (ulong64 (ctx₁.Size - Count) : ℤ) = ctx₁.Size - Count :=
      ulong64_of_mem (by omega) (by omega)
    have hbalanced := hkeeps.balanced
    refine ⟨⟨hbalanced.rangeSet, hbalanced.nodup, hbalanced.balance, hbalanced.popped⟩, ?_, ?_, ?_⟩
    · show ulong64 (ctx₁.Size - Count) = ctx₁.given.card
      omega
    · show target ≤ ulong64 (ctx₁.Size - Count)
      omega
    · show ulong64 (ctx₁.Size - Count) ≤ ctx.Size
      omega

/-- **An event keeps the invariant.** -/
theorem Inv.step (h : Inv s) {e : Event} (hs : step s e = some t) : Inv t := by
  cases e with
  | adjust Size Inflation Deflation =>
    cases hcall : s.call with
    | some call => simp [Balloon.step, hcall] at hs
    | none =>
      simp only [Balloon.step, hcall] at hs
      split_ifs at hs with hSize
      obtain rfl := Option.some.inj hs
      have hbalanced := h.balanced
      refine ⟨⟨hbalanced.rangeSet, hbalanced.nodup, hbalanced.balance, hbalanced.popped⟩, h.size,
        h.small, fun call hmem => ?_⟩
      obtain rfl := Option.mem_some_iff.mp hmem
      refine ⟨hSize, ?_⟩
      show s.ctx.Size ≤ s.ctx.Size ∧ s.ctx.Size ≤ Size ∨ Size ≤ s.ctx.Size ∧ s.ctx.Size ≤ s.ctx.Size
      omega
  | inflate LowMemory batches =>
    obtain ⟨call, hcall, hs⟩ := Option.bind_eq_some_iff.mp hs
    split_ifs at hs with hmore
    obtain ⟨⟨status, ctx⟩, hinflate, rfl⟩ := Option.map_eq_some_iff.mp hs
    obtain ⟨htarget, hbetween⟩ := h.target call hcall
    obtain ⟨hbalanced, hsize, hlo, hhi⟩ :=
      balloonInflate_spec h.balanced h.size hmore.1 htarget hinflate
    refine ⟨hbalanced, hsize, hhi.trans_lt htarget, fun call' hmem => ?_⟩
    obtain rfl := Option.mem_some_iff.mp hmem
    refine ⟨htarget, ?_⟩
    show call.start ≤ ctx.Size ∧ ctx.Size ≤ call.target ∨ call.target ≤ ctx.Size ∧ ctx.Size ≤ call.start
    omega
  | deflate batches =>
    obtain ⟨call, hcall, hs⟩ := Option.bind_eq_some_iff.mp hs
    split_ifs at hs with hmore
    obtain ⟨⟨status, ctx⟩, hdeflate, rfl⟩ := Option.map_eq_some_iff.mp hs
    have hsmall := h.small
    obtain ⟨htarget, hbetween⟩ := h.target call hcall
    obtain ⟨hbalanced, hsize, hlo, hhi⟩ :=
      balloonDeflate_spec h.balanced h.size hmore.1 hsmall hdeflate
    refine ⟨hbalanced, hsize, hhi.trans_lt hsmall, fun call' hmem => ?_⟩
    obtain rfl := Option.mem_some_iff.mp hmem
    refine ⟨htarget, ?_⟩
    show call.start ≤ ctx.Size ∧ ctx.Size ≤ call.target ∨ call.target ≤ ctx.Size ∧ ctx.Size ≤ call.start
    omega
  | «return» =>
    obtain ⟨call, hcall, hs⟩ := Option.bind_eq_some_iff.mp hs
    split_ifs at hs
    obtain rfl := Option.some.inj hs
    exact ⟨h.balanced, h.size, h.small, fun call hmem => absurd hmem (Option.not_mem_none _)⟩

theorem Inv.accounted (h : Inv s) : Accounted s := by
  have hbalanced := h.balanced
  refine ⟨hbalanced.rangeSet, fun page => ?_, ?_, hbalanced.popped, fun call hcall => ?_⟩
  · rw [hbalanced.balance, Multiset.count_add]
    split_ifs with hmem
    · rw [Multiset.count_eq_one_of_mem hbalanced.nodup hmem]
    · rw [Multiset.count_eq_zero_of_notMem hmem]
  · rw [hbalanced.rangeSet]
    exact h.size
  · have hbetween := (h.target call hcall).2
    omega

/-- **Balloon accounting is conserved.** -/
theorem pages_accounted_of_reaches (h : Reaches step Free init s) : Accounted s := by
  have hinit : Inv init :=
    ⟨⟨rfl, Multiset.nodup_zero, rfl, rfl⟩, rfl, by decide,
      fun call hmem => absurd hmem (Option.not_mem_none _)⟩
  have hinv : Inv s := h.invariant hinit fun s e t hs _ hstep => hs.step hstep
  exact hinv.accounted

/-- Up to 3 pages, with 2 of 3 released at first and the range set full afterwards; then down to 1, with
1 of 2 populated. -/
def upAndDown : List Event :=
  [.adjust 3 false false, .inflate false [⟨[7, 5, 6], false, 3, some 2⟩, ⟨[9], false, 0, none⟩], .return,
    .adjust 0 false false, .deflate [⟨[6, 5], some 1⟩]]

theorem pages_accounted_of_reaches_up_and_down : ∃ s : State,
    run step init upAndDown = some s ∧ s.ctx.given = {5} ∧ Accounted s := by
  obtain ⟨s, hs, hend⟩ := (Option.any_eq_true (fun s : State => decide (s.ctx.given = {5}))
    (run step init upAndDown)).mp (by decide +kernel)
  exact ⟨s, hs, of_decide_eq_true hend, pages_accounted_of_reaches (reaches_of_run hs)⟩

end XenBus.Balloon
