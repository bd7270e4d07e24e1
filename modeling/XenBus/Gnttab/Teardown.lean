import XenBus.Gnttab.Clients
import XenBus.ObjectCache.Tally

/-!
# Taking the grant table down

`GnttabContract` takes the references of each frame out of the range set, from the highest frame down, and
gives its page back; then `RangeSetDestroy` asserts that the set is empty.

When there is no cache left, all references are items again, if no slab was left behind. So the set has
one range (`Partition.filled`), each `RangeSetGet` takes the top off it, or all of it, and needs no node
(`rangeSetGet_filled`). Along every run of calls in which a cache is destroyed when its entries have been
revoked, that is so at the end (`contracted_of_reaches`).
-/

namespace XenBus.Gnttab

open MachineInt ObjectCache RangeSet Construction Transition

variable {ctx ctx' : Context} {allocate : ℕ → Bool} {Spare : Bool} {k : ℕ}

/-! ## GnttabContract -/

/-- One turn of the loop of `GnttabContract`: the status of `RangeSetGet`, the page that
`MemoryRemoveFromPhysmap` gets and the one that `FdoHoleFree` gets. -/
structure Removal where
  Index : ℕ
  status : Status
  Unmapped : ℕ
  Freed : ℕ
  deriving DecidableEq

/-- The context with another range set, and without the page of a frame. -/
def Context.clearFrame (ctx : Context) (Index : ℕ) (rs : XenBus.RangeSet) : Context :=
  { ctx with
    RangeSet := rs
    Frame := Function.update ctx.Frame Index { ctx.Frame Index with Mdl := none } }

@[simp] theorem Context.clearFrame_rangeSet (ctx : Context) (Index : ℕ) (rs : XenBus.RangeSet) :
    (ctx.clearFrame Index rs).RangeSet = rs := rfl

@[simp] theorem Context.clearFrame_mdl (ctx : Context) (Index : ℕ) (rs : XenBus.RangeSet) :
    ((ctx.clearFrame Index rs).Frame Index).Mdl = none := by
  simp [clearFrame]

theorem Context.clearFrame_frame (ctx : Context) {Index i : ℕ} (rs : XenBus.RangeSet) (hne : i ≠ Index) :
    (ctx.clearFrame Index rs).Frame i = ctx.Frame i := Function.update_of_ne hne _ _

/-- The loop of `GnttabContract`, from the frame below `Index` down; `allocate` is the outcome of the
allocation of a node for each frame. -/
def contractLoop (allocate : ℕ → Bool) : ℕ → Context → Option (List Removal × Context)
  | 0, ctx => some ([], ctx)
  | Index + 1, ctx => do
    let (status, rs) ← rangeSetGet ctx.RangeSet (frameStart Index) (frameEnd Index - frameStart Index)
      (allocate Index)
    let Pfn ← (ctx.Frame Index).Mdl
    let (removals, ctx') ← contractLoop allocate Index (ctx.clearFrame Index rs)
    return (⟨Index, status, Pfn, Pfn⟩ :: removals, ctx')

/-- `GnttabContract`. -/
def gnttabContract (allocate : ℕ → Bool) (ctx : Context) : Option (List Removal × Context) := do
  let (removals, ctx') ← contractLoop allocate (ctx.FrameIndex + 1).toNat ctx
  return (removals, { ctx' with FrameIndex := -1 })

/-- The context with a spare node in the range set, or without. -/
def Context.withSpare (ctx : Context) (Spare : Bool) : Context :=
  { ctx with RangeSet := { ctx.RangeSet with Spare := Spare } }

/-- **The teardown succeeds**: the references of each frame are taken out of the set, from the highest
frame down, the page of each of them is unmapped and freed once, and nothing is left in the set. -/
structure Contracted (ctx : Context) (removals : List Removal) (ctx' : Context) : Prop where
  indices : removals.map Removal.Index = (List.range (ctx.FrameIndex + 1).toNat).reverse
  success : ∀ r ∈ removals, r.status = .success
  pages : ∀ r ∈ removals, (ctx.Frame r.Index).Mdl = some r.Unmapped ∧ r.Freed = r.Unmapped
  frames : ∀ Index : ℕ, (Index : ℤ) ≤ ctx.FrameIndex → (ctx'.Frame Index).Mdl = none
  frameIndex : ctx'.FrameIndex = -1
  rangeSet : rangeSetDestroyAsserts ctx'.RangeSet = true

/-! ## One range of references -/

/-- The range set of all references of `k` frames. -/
def filled : ℕ → Bool → RangeSet
  | 0, Spare => vacant Spare
  | k + 1, Spare => single reservedEntryCount (frameEnd k - 1) Spare

/-- **The references of the highest frame** are taken out without a node. -/
theorem rangeSetGet_filled (k : ℕ) (hk : frameEnd k ≤ 4294967296) (Spare allocate : Bool) :
    ∃ Spare', rangeSetGet (filled (k + 1) Spare) (frameStart k) (frameEnd k - frameStart k) allocate =
      some (.success, filled k Spare') := by
  have hlt := frameStart_lt k
  have hC : 0 < frameEnd k - frameStart k := Nat.sub_pos_of_lt hlt
  have hend : (frameEnd k : ℤ) - 1 = frameStart k + (frameEnd k - frameStart k : ℕ) - 1 := by omega
  have hhi : (frameStart k : ℤ) + (frameEnd k - frameStart k : ℕ) ≤ 9223372036854775807 := by omega
  rw [filled, hend]
  cases k with
  | zero => exact ⟨true, rangeSetGet_single (by decide) hC hhi Spare allocate⟩
  | succ k =>
    have hstart : frameStart (k + 1) = frameEnd k := by
      unfold frameStart frameEnd reservedEntryCount entryPerFrame
      omega
    have hlow : (reservedEntryCount : ℤ) < frameStart (k + 1) := by
      unfold frameStart reservedEntryCount entryPerFrame
      omega
    refine ⟨Spare, (rangeSetGet_top (by decide) hlow hC hhi Spare allocate).trans ?_⟩
    rw [filled, hstart]

/-- With no constructed entry, all references are items. -/
theorem Partition.filled (h : Partition ∅ ctx) :
    ∃ k : ℕ, ctx.FrameIndex + 1 = k ∧ k * entryPerFrame ≤ 4294967296 ∧
      ctx.RangeSet = Gnttab.filled k ctx.RangeSet.Spare := by
  have hlow := h.low
  have hhigh := h.high
  have hsmall := h.small
  have hitems : ∀ r : ℤ, r ∈ ctx.RangeSet.items ↔
      reservedEntryCount ≤ r ∧ r < (ctx.FrameIndex + 1) * entryPerFrame := fun r => by
    rw [← h.union r]
    simp
  obtain ⟨k, hk⟩ : ∃ k : ℕ, ctx.FrameIndex + 1 = k := ⟨(ctx.FrameIndex + 1).toNat, by omega⟩
  refine ⟨k, hk, (Nat.mul_le_mul_right _ (by omega)).trans hsmall, ?_⟩
  rw [hk] at hitems
  cases k with
  | zero =>
    apply h.sound.eq_vacant
    rw [Finset.eq_empty_iff_forall_notMem]
    intro r hr
    have := (hitems r).mp hr
    unfold reservedEntryCount entryPerFrame at this
    omega
  | succ k =>
    apply h.sound.eq_single
    · unfold reservedEntryCount frameEnd entryPerFrame
      omega
    · intro r
      rw [hitems]
      unfold reservedEntryCount frameEnd entryPerFrame
      omega

/-! ## The loop -/

/-- What the loop does to `k` frames. -/
structure Removed (k : ℕ) (ctx : Context) (removals : List Removal) (ctx' : Context) : Prop where
  indices : removals.map Removal.Index = (List.range k).reverse
  success : ∀ r ∈ removals, r.status = .success
  pages : ∀ r ∈ removals, (ctx.Frame r.Index).Mdl = some r.Unmapped ∧ r.Freed = r.Unmapped
  frames : ∀ Index < k, (ctx'.Frame Index).Mdl = none
  others : ∀ Index, k ≤ Index → ctx'.Frame Index = ctx.Frame Index
  rangeSet : ∃ Spare, ctx'.RangeSet = vacant Spare

theorem Removed.lt {removals : List Removal} (h : Removed k ctx removals ctx') {r : Removal}
    (hr : r ∈ removals) : r.Index < k := by
  have hmem := List.mem_map_of_mem (f := Removal.Index) hr
  rw [h.indices, List.mem_reverse] at hmem
  exact List.mem_range.mp hmem

/-- **The loop of `GnttabContract`** over frames that have their pages, all of whose references are
items. -/
theorem contractLoop_spec (allocate : ℕ → Bool) (hk : k * entryPerFrame ≤ 4294967296)
    (hrs : ctx.RangeSet = filled k Spare) (hmdl : ∀ Index < k, (ctx.Frame Index).Mdl ≠ none) :
    ∃ removals ctx', contractLoop allocate k ctx = some (removals, ctx') ∧ Removed k ctx removals ctx' := by
  induction k generalizing ctx Spare with
  | zero => exact ⟨[], ctx, rfl, rfl, nofun, nofun, nofun, fun _ _ => rfl, Spare, hrs⟩
  | succ k ih =>
    obtain ⟨Spare', hget⟩ := rangeSetGet_filled k hk Spare (allocate k)
    obtain ⟨Pfn, hPfn⟩ := Option.ne_none_iff_exists'.mp (hmdl k (Nat.lt_succ_self k))
    have hmdl' : ∀ Index < k, ((ctx.clearFrame k (filled k Spare')).Frame Index).Mdl ≠ none :=
      fun Index hlt => by
        rw [ctx.clearFrame_frame _ (Nat.ne_of_lt hlt)]
        exact hmdl Index (Nat.lt_succ_of_lt hlt)
    obtain ⟨removals, ctx', hloop, hremoved⟩ :=
      ih ((Nat.mul_le_mul_right _ (Nat.le_succ k)).trans hk) (ctx.clearFrame_rangeSet k _) hmdl'
    refine ⟨⟨k, .success, Pfn, Pfn⟩ :: removals, ctx', ?_, ?_, ?_, ?_, ?_, ?_, hremoved.rangeSet⟩
    · rw [contractLoop, hrs, hget, hPfn]
      simp only [Option.bind_eq_bind, Option.bind_some, hloop]
      rfl
    · rw [List.map_cons, hremoved.indices, List.range_succ, List.reverse_append]
      rfl
    · intro r hr
      rcases List.mem_cons.mp hr with rfl | hr
      · rfl
      · exact hremoved.success r hr
    · intro r hr
      rcases List.mem_cons.mp hr with rfl | hr
      · exact ⟨hPfn, rfl⟩
      · have hpages := hremoved.pages r hr
        rwa [ctx.clearFrame_frame _ (Nat.ne_of_lt (hremoved.lt hr))] at hpages
    · intro Index hlt
      by_cases heq : Index = k
      · rw [heq, hremoved.others k le_rfl, ctx.clearFrame_mdl]
      · exact hremoved.frames Index (by omega)
    · intro Index hle
      rw [hremoved.others Index (Nat.le_of_succ_le hle)]
      exact ctx.clearFrame_frame _ (Nat.ne_of_gt hle)

/-- **`GnttabContract` when there is no entry**: it succeeds, whether there is a spare node or not, and
whatever the allocations do. -/
theorem gnttabContract_spec (h : Partition ∅ ctx) (hpopulated : Populated ctx) (Spare : Bool)
    (allocate : ℕ → Bool) : ∃ removals ctx',
      gnttabContract allocate (ctx.withSpare Spare) = some (removals, ctx') ∧
      Contracted ctx removals ctx' := by
  obtain ⟨k, hk, hsmall, hfilled⟩ := h.filled
  have hrs : (ctx.withSpare Spare).RangeSet = filled k Spare := by
    show { ctx.RangeSet with Spare := Spare } = _
    rw [hfilled]
    cases k <;> rfl
  have hmdl : ∀ Index < k, ((ctx.withSpare Spare).Frame Index).Mdl ≠ none :=
    fun Index hlt => hpopulated Index (by omega)
  obtain ⟨removals, ctx', hloop, hremoved⟩ := contractLoop_spec allocate hsmall hrs hmdl
  have hcount : (ctx.FrameIndex + 1).toNat = k := by omega
  refine ⟨removals, { ctx' with FrameIndex := -1 }, ?_, ?_, hremoved.success, hremoved.pages, ?_, rfl, ?_⟩
  · show (contractLoop allocate (ctx.FrameIndex + 1).toNat (ctx.withSpare Spare)).bind _ = _
    rw [hcount, hloop]
    rfl
  · rw [hcount]
    exact hremoved.indices
  · exact fun Index hle => hremoved.frames Index (by omega)
  · obtain ⟨Spare', hvacant⟩ := hremoved.rangeSet
    show rangeSetDestroyAsserts ctx'.RangeSet = true
    rw [hvacant]
    rfl

/-! ## Runs -/

variable {n : ℕ} {ι : Type*} [DecidableEq ι] {s t : State n ι} {i : ι}

/-- The counts are `ULONG`s, and a cache is destroyed when all its entries have been revoked, as
`CacheDestroy` asserts. -/
def Proper (s : State n ι) : Act n ι → Prop
  | .createCache _ Reservation _ _ _ _ => Reservation < 4294967296
  | .fill _ Count _ => Count < 4294967296
  | .destroyCache i => ∀ c ∈ s.caches i, c.permitted = []
  | _ => True

instance (s : State n ι) : (a : Act n ι) → Decidable (Proper s a)
  | .createCache _ Reservation _ _ _ _ => inferInstanceAs (Decidable (Reservation < 4294967296))
  | .permit .. => isTrue trivial
  | .revoke .. => isTrue trivial
  | .fill _ Count _ => inferInstanceAs (Decidable (Count < 4294967296))
  | .spill .. => isTrue trivial
  | .destroyCache i => inferInstanceAs (Decidable (∀ c ∈ s.caches i, c.permitted = []))

/-- A proper call, with the pages that the memory manager returns. -/
def Orderly (s : State n ι) (a : Act n ι) : Prop := Managed s a ∧ Proper s a

instance [Fintype ι] (s : State n ι) (a : Act n ι) : Decidable (Orderly s a) :=
  inferInstanceAs (Decidable (_ ∧ _))

/-- With so many slabs of entries the `Count` of a cache is the greatest `ULONG`. -/
def slabLimit : ℕ := 424403883

example : slabLimit * slabCount entrySize % 4294967296 = 4294967295 := by decide +kernel

/-- The invariant of runs that leave nothing behind. -/
structure Accounted (s : State n ι) : Prop where
  inv : Inv s
  tallied : ∀ i, ∀ c ∈ s.caches i, Tallied slabLimit c.Cache
  leaked : s.leaked = []
  populated : Populated s.context

omit [DecidableEq ι] in
/-- There are no more constructed entries than references, so a cache whose slabs are all full is below
the limit. -/
theorem Inv.length_lt (h : Inv s) {c : ClientCache n} (hc : s.caches i = some c)
    (hcur : c.Cache.Cursor = none) : c.Cache.SlabList.length < slabLimit := by
  obtain ⟨huse, hsize⟩ := h.caches i c hc
  have hsub : c.Cache.constructed ⊆ s.constructed := fun o ho => by
    refine ⟨some i, ?_⟩
    rw [slabs_some hc, ← hsize]
    exact ho
  have hbound : ∀ o ∈ c.Cache.constructed, (s.context.Object o).Reference < 4294967296 := fun o ho => by
    have hlt := ((h.partition.union _).mp (.inr ⟨o, hsub ho, rfl⟩)).2
    have hhigh := h.partition.high
    have hsmall := h.partition.small
    unfold entryPerFrame at hlt hsmall
    omega
  have hle := huse.ordered.length_mul_le huse.size hcur
    (f := fun o => (s.context.Object o).Reference)
    (fun o ho o' ho' heq => h.partition.injective o (hsub ho) o' (hsub ho') heq) hbound
  have hcount : slabCount c.Cache.Size = 253 := by
    rw [hsize]
    decide +kernel
  rw [hcount] at hle
  unfold slabLimit
  omega

/-- What a call does to the caches of an accounted state. -/
theorem Accounted.set (h : Accounted s) {c : Option (ClientCache n)} {ctx : Context}
    (hc : ∀ x ∈ c, Tallied slabLimit x.Cache) :
    (∀ j, ∀ x ∈ (s.set i c ctx []).caches j, Tallied slabLimit x.Cache) ∧
      (s.set i c ctx []).leaked = [] := by
  refine ⟨fun j x hx => ?_, h.leaked⟩
  by_cases hj : j = i
  · subst hj
    apply hc
    simpa [State.set] using hx
  · apply h.tallied j
    simpa [State.set, Function.update_of_ne hj] using hx

theorem Accounted.caches (h : Accounted s) {a : Act n ι} (hG : Orderly s a) (hs : step s a = some t) :
    (∀ j, ∀ x ∈ t.caches j, Tallied slabLimit x.Cache) ∧ t.leaked = [] := by
  obtain ⟨hmanaged, hproper⟩ := hG
  unfold Gnttab.step at hs
  have hfault : ¬ s.fault = true := by simp [h.inv.noFault]
  rw [if_neg hfault] at hs
  cases a with
  | createCache i Reservation Cap allocate name outcome =>
    dsimp only at hs
    split_ifs at hs with hnone
    obtain rfl := Option.some.inj hs
    apply h.set
    intro x hx
    obtain ⟨cache, hcache, rfl⟩ := Option.mem_map.mp hx
    unfold gnttabCreateCache at hcache
    cases allocate with
    | false => exact absurd hcache (Option.not_mem_none _)
    | true =>
      cases name with
      | false => exact absurd hcache (Option.not_mem_none _)
      | true =>
        exact Tallied.create client (by decide +kernel) (by decide) (by decide +kernel) hproper
          hmanaged.1 s.context cache hcache
  | permit i cpu alloc Domain Pfn ReadOnly =>
    obtain ⟨c, hc, rfl⟩ := Option.map_eq_some_iff.mp hs
    have hget := (h.tallied i c hc).get client (h.inv.caches i c hc).1 (fresh_of_unused hc hmanaged)
      (h.inv.length_lt hc) cpu s.context
    apply h.set
    intro x hx
    obtain rfl := Option.some.inj hx
    generalize cacheGet client c.Cache cpu alloc s.context = r at hget ⊢
    obtain ⟨o, cache, ctx⟩ := r
    cases o <;> exact hget
  | revoke i cpu o reads =>
    obtain ⟨c, hc, hs⟩ := Option.bind_eq_some_iff.mp hs
    split_ifs at hs with ho
    obtain ⟨ctx, -, hrevoke | hrevoke⟩ := gnttabRevoke_cases c.Cache cpu o reads s.context
    · rw [hrevoke] at hs
      obtain rfl := Option.some.inj hs
      apply h.set
      intro x hx
      obtain rfl := Option.some.inj hx
      exact h.tallied i c hc
    · obtain ⟨cache, hput, -⟩ := cachePut_spec (A := c.Cache.SlabList.map Slab.Address) client
        (h.inv.caches i c hc).1 (fun slab hslab => List.mem_map_of_mem hslab) ho cpu s.context
      rw [hrevoke, hput] at hs
      obtain rfl := Option.some.inj hs
      apply h.set
      intro x hx
      obtain rfl := Option.some.inj hx
      exact (h.tallied i c hc).put (h.inv.caches i c hc).1 ho hput
  | fill i Count allocs =>
    obtain ⟨c, hc, rfl⟩ := Option.map_eq_some_iff.mp hs
    apply h.set
    intro x hx
    obtain rfl := Option.some.inj hx
    exact (h.tallied i c hc).fill client (h.inv.caches i c hc).1 hproper (hmanaged.1 c hc) s.context
  | spill i Count =>
    obtain ⟨c, hc, rfl⟩ := Option.map_eq_some_iff.mp hs
    apply h.set
    intro x hx
    obtain rfl := Option.some.inj hx
    exact (h.tallied i c hc).spill client (h.inv.caches i c hc).1 Count s.context
  | destroyCache i =>
    obtain ⟨c, hc, hs⟩ := Option.bind_eq_some_iff.mp hs
    have huse := (h.inv.caches i c hc).1
    rw [hproper c hc] at huse
    obtain ⟨ctx, hdestroy⟩ := (h.tallied i c hc).destroy huse client s.context
    rw [hdestroy] at hs
    obtain rfl := Option.some.inj hs
    exact h.set fun _ hx => absurd hx (Option.not_mem_none _)

/-- **A proper call leaves nothing behind.** -/
theorem Accounted.step (h : Accounted s) {a : Act n ι} (hG : Orderly s a) (hs : step s a = some t) :
    Accounted t := by
  obtain ⟨htallied, hleaked⟩ := h.caches hG hs
  refine ⟨h.inv.step hG.1 hs, htallied, hleaked, ?_⟩
  obtain ⟨A, i, c, ctx, ctx', left, rfl, hcalled, hsame⟩ := h.inv.called hG.1 hs
  have hpopulated := ((hcalled.frame h.inv).invariant (partition_preserved True)
    ⟨h.inv.partition, fun _ => h.populated⟩).2 trivial
  exact hpopulated.congr hsame.frameIndex hsame.mdl

omit [DecidableEq ι] in
/-- When there is no cache, there is no constructed entry. -/
theorem Accounted.constructed (h : Accounted s) (hnone : ∀ i, s.caches i = none) :
    s.constructed = ∅ := by
  rw [Set.eq_empty_iff_forall_notMem]
  rintro o ⟨j, slab, hslab, -⟩
  cases j with
  | none =>
    change slab ∈ s.leaked at hslab
    rw [h.leaked] at hslab
    exact List.not_mem_nil hslab
  | some i =>
    change slab ∈ ((s.caches i).map fun c => c.Cache.SlabList).getD [] at hslab
    rw [hnone i] at hslab
    exact List.not_mem_nil hslab

/-- **The teardown of the grant table always succeeds**: after every run of proper calls at whose end
there is no cache, whatever expansions and allocations have failed in it. No `RangeSetGet` needs a node:
it does not matter whether there is a spare one, and what the allocations do. -/
theorem contracted_of_reaches {MaximumFrameCount : ℕ}
    (hmax : MaximumFrameCount * entryPerFrame ≤ 4294967296) (Frame : ℕ → Frame) (Object : ℕ → Entry)
    (Outcome : ℕ → ExpandOutcome)
    (h : Reaches step Orderly (init n ι (initContext MaximumFrameCount Frame Object Outcome)) s)
    (hnone : ∀ i, s.caches i = none) (Spare : Bool) (allocate : ℕ → Bool) :
    ∃ removals ctx, gnttabContract allocate (s.context.withSpare Spare) = some (removals, ctx) ∧
      Contracted s.context removals ctx := by
  have haccounted : Accounted s := by
    refine h.invariant ⟨inv_init hmax Frame Object Outcome, ?_, rfl, ?_⟩
      fun s a t hs hG hstep => hs.step hG hstep
    · exact fun i c hc => absurd hc (Option.not_mem_none _)
    · intro Index hle
      change (Index : ℤ) ≤ -1 at hle
      omega
  have hpartition := haccounted.inv.partition
  rw [haccounted.constructed hnone] at hpartition
  exact gnttabContract_spec hpartition haccounted.populated Spare allocate

/-- The two clients of `twoClients`, the second of which revokes its entries, in the order in which it
has got them, and goes, too. -/
def twoClientsGone [NeZero n] (i j : ι) : List (Act n ι) :=
  twoClients i j ++ [.fill j 300 [page 12288], .revoke j 0 8240 (fun _ => (1, 1)), .spill j 0,
    .revoke j 0 8256 (fun _ => (1, 1)), .destroyCache j]

/-- One frame is taken down, its page 101 is unmapped and freed. -/
theorem contracted_of_reaches_two : ∃ s : State 1 (Fin 2),
    guardedRun step Orderly (init 1 (Fin 2) (initContext 4 (fun _ => ⟨none, fun _ => .zero⟩)
      (fun _ => ⟨0, .zero⟩) secondExpansion)) (twoClientsGone 0 1) = some s ∧
    ∃ removals ctx, gnttabContract (fun _ => false) (s.context.withSpare false) = some (removals, ctx) ∧
      removals = [⟨0, .success, 101, 101⟩] ∧ Contracted s.context removals ctx := by
  obtain ⟨s, hs, hv⟩ := (Option.any_eq_true (fun s : State 1 (Fin 2) =>
      decide ((∀ i, (s.caches i).isNone = true) ∧
        (gnttabContract (fun _ => false) (s.context.withSpare false)).map Prod.fst =
          some [⟨0, .success, 101, 101⟩]))
    (guardedRun step Orderly (init 1 (Fin 2) (initContext 4 (fun _ => ⟨none, fun _ => .zero⟩)
      (fun _ => ⟨0, .zero⟩) secondExpansion)) (twoClientsGone 0 1))).mp (by decide +kernel)
  obtain ⟨hnone, hremovals⟩ := of_decide_eq_true hv
  obtain ⟨removals, ctx, hcontract, hcontracted⟩ :=
    contracted_of_reaches (by decide) _ _ _ (reaches_of_guardedRun hs)
      (fun i => Option.isNone_iff_eq_none.mp (hnone i)) false fun _ => false
  rw [hcontract] at hremovals
  exact ⟨s, hs, removals, ctx, hcontract, Option.some.inj hremovals, hcontracted⟩

end XenBus.Gnttab
