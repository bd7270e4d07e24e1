import XenBus.ObjectCache.System

/-!
# No object is handed out twice, and none is lost

Along every run each slot of each slab is with one user, in one slot of one magazine, or unallocated, and
the allocated counts add up to `CurrentObjects` and the objects in magazines (`Accounted`). `CacheGet`
returns an object that nobody has, and a slab that goes away has no slot that is in use (`Careful`).

This takes a `Size` with which every object of a slab begins on the slab's first page, from which
`CachePut` finds the slab; with others, `PAGE_ALIGN` of an object is not its slab. It also takes a
`CurrentObjects` that does not overflow.
-/

namespace XenBus.ObjectCache

open MachineInt Transition

variable {n : ℕ} {σ : Type*} {client : Client σ} {s t : State n σ}

/-- **Each object is accounted for.** -/
structure Accounted (s : State n σ) : Prop where
  noFault : s.fault = false
  slot : ∀ slab ∈ s.cache.SlabList, ∀ Index < slabCount s.cache.Size,
    clients s.held s.pending (slab.object s.cache.Size Index) +
      inMagazines s.cache.Magazine (slab.object s.cache.Size Index) +
      (if cacheMaskTest slab.Allocated Index then 0 else 1) = 1
  known : ∀ o, 0 < clients s.held s.pending o + inMagazines s.cache.Magazine o →
    ∃ slab ∈ s.cache.SlabList, ∃ Index < slabCount s.cache.Size, slab.object s.cache.Size Index = o
  sum : (allocatedTotal s.cache.SlabList : ℤ) =
    s.cache.CurrentObjects + magazineTotal s.cache.Magazine

/-- What `CacheGet` returns was with no user, and of a slab that goes away no slot is in use. -/
structure Careful (s t : State n σ) : Prop where
  delivered : ∀ x, t.held = x :: s.held → clients s.held s.pending x = 0
  destroyed : ∀ slab ∈ s.cache.SlabList, slab.Address ∉ t.cache.SlabList.map Slab.Address →
    ∀ Index < slabCount s.cache.Size,
      clients s.held s.pending (slab.object s.cache.Size Index) = 0 ∧
        inMagazines s.cache.Magazine (slab.object s.cache.Size Index) = 0

/-- The pages that the memory manager returns are not in use, and `CurrentObjects` can be incremented. -/
def Counting (s : State n σ) (a : Act n) : Prop :=
  Managed s a ∧ s.cache.CurrentObjects + 1 < 2147483648

instance (s : State n σ) (a : Act n) : Decidable (Counting s a) :=
  inferInstanceAs (Decidable (_ ∧ _))

/-! ## The count of objects -/

theorem clientTotal_nonneg (held : List ℕ) (pending : Fin n → Pending) :
    0 ≤ clientTotal held pending := by
  refine add_nonneg (Int.natCast_nonneg _) (Finset.sum_nonneg fun cpu _ => ?_)
  cases pending cpu <;> simp [Pending.size]

/-- `CurrentObjects` counts what the users have. -/
theorem current_step (h : s.cache.CurrentObjects = clientTotal s.held s.pending)
    (hlt : s.cache.CurrentObjects + 1 < 2147483648) {a : Act n} (hs : Happens client s a t) :
    t.cache.CurrentObjects = clientTotal t.held t.pending := by
  have hnonneg := clientTotal_nonneg s.held s.pending
  have hinc : long32 (s.cache.CurrentObjects + 1) = s.cache.CurrentObjects + 1 :=
    long32_of_mem (by omega) (by omega)
  have hdec : long32 (s.cache.CurrentObjects - 1) = s.cache.CurrentObjects - 1 :=
    long32_of_mem (by omega) (by omega)
  cases hs with
  | taken hidle hget =>
    show long32 (s.cache.CurrentObjects + 1) = _
    rw [hinc, clientTotal_cons, h]
  | missed hidle =>
    show s.cache.CurrentObjects = _
    rw [clientTotal_update, hidle, h]
    simp [Pending.size]
  | @got cpu alloc x cache c A hpending hlocked hsec hgot =>
    show long32 (cache.CurrentObjects + 1) = clientTotal (x :: s.held) _
    rw [hsec.kept.currentObjects, hinc, clientTotal_cons, clientTotal_update, hpending, h]
    simp [Pending.size]
  | @failed cpu alloc cache c A hpending hlocked hsec hsame =>
    show cache.CurrentObjects = _
    rw [hsec.kept.currentObjects, clientTotal_update, hpending, h]
    simp [Pending.size]
  | stored hidle hheld hput =>
    show long32 (s.cache.CurrentObjects - 1) = _
    rw [hdec, clientTotal_erase hheld, h]
  | returning hidle hheld hput =>
    show s.cache.CurrentObjects = _
    rw [clientTotal_erase hheld, clientTotal_update, hidle, h]
    simp [Pending.size]
  | @returned cpu x cache A hpending hlocked hsec hall htotal halive =>
    show long32 (cache.CurrentObjects - 1) = _
    rw [hsec.kept.currentObjects, hdec, clientTotal_update, hpending, h]
    simp [Pending.size]
  | @same a cache c A hmaintains hsec hsame =>
    show cache.CurrentObjects = _
    rw [hsec.kept.currentObjects, h]

/-! ## States and steps -/

/-- An object of a slab is allocated if its bit is set. -/
theorem Owned.mem_allocated (h : Owned s) {slab : Slab} (hslab : slab ∈ s.cache.SlabList) {i : ℕ}
    (hi : i < slabCount s.cache.Size) :
    slab.object s.cache.Size i ∈ s.cache.allocated ↔ i ∈ slab.Allocated.Bits := by
  constructor
  · rintro ⟨slab', hslab', j, hj, heq⟩
    have hgood := h.ordered.slabs.good slab' hslab'
    obtain ⟨haddr, rfl⟩ := h.size.object_inj (h.ordered.slabs.aligned slab hslab)
      (h.ordered.slabs.aligned slab' hslab') hi (hgood.lt_of_mem (hgood.subset hj)) heq.symm
    obtain rfl := List.inj_on_of_nodup_map h.ordered.slabs.nodup hslab hslab' haddr
    exact hj
  · exact fun hmem => ⟨slab, hslab, i, hmem, rfl⟩

theorem Owned.accounted (h : Owned s) (hcurrent : s.cache.CurrentObjects = clientTotal s.held s.pending) :
    Accounted s where
  noFault := h.noFault
  slot slab hslab i hi := by
    by_cases hbit : i ∈ slab.Allocated.Bits
    · have htest : cacheMaskTest slab.Allocated i = true := decide_eq_true hbit
      rw [h.balance.used _ ((h.mem_allocated hslab hi).mpr hbit), if_pos htest, add_zero]
    · have htest : ¬ cacheMaskTest slab.Allocated i = true := by simpa [cacheMaskTest] using hbit
      rw [h.balance.unused _ fun hmem => hbit ((h.mem_allocated hslab hi).mp hmem), if_neg htest,
        zero_add]
  known o ho := by
    by_contra hnone
    have hfree : o ∉ s.cache.allocated := by
      rintro ⟨slab, hslab, i, hi, rfl⟩
      have hgood := h.ordered.slabs.good slab hslab
      exact hnone ⟨slab, hslab, i, hgood.lt_of_mem (hgood.subset hi), rfl⟩
    have := h.balance.unused o hfree
    omega
  sum := by
    rw [hcurrent]
    exact h.balance.sum

/-- An object in a magazine is with no user. -/
theorem Owned.clients_eq_zero (h : Owned s) {cpu : Fin n} {x : ℕ} {m : Magazine}
    (hget : cacheGetObjectFromMagazine (s.cache.Magazine cpu) = (some x, m)) :
    clients s.held s.pending x = 0 := by
  obtain ⟨hcount, -⟩ := cacheGetObjectFromMagazine_spec hget
  have hone := hcount x
  rw [if_pos rfl] at hone
  have hle : ((s.cache.Magazine cpu).count (some x) : ℤ) ≤ inMagazines s.cache.Magazine x :=
    Finset.single_le_sum (f := fun i => ((s.cache.Magazine i).count (some x) : ℤ))
      (fun _ _ => Int.natCast_nonneg _) (Finset.mem_univ cpu)
  have hnonneg := clients_nonneg s.held s.pending x
  by_cases hx : x ∈ s.cache.allocated
  · have := h.balance.used x hx
    omega
  · have := h.balance.unused x hx
    omega

/-- The page of an object that stays allocated is the page of a slab. -/
theorem Owned.page_alive (h : Owned s) {o : ℕ} (ho : o ∈ s.cache.allocated) :
    pageAlign o ∈ s.cache.SlabList.map Slab.Address := by
  obtain ⟨slab, hslab, i, hi, rfl⟩ := ho
  have hgood := h.ordered.slabs.good slab hslab
  rw [h.size.pageAlign_object (h.ordered.slabs.aligned slab hslab) (hgood.lt_of_mem (hgood.subset hi))]
  exact List.mem_map_of_mem hslab

/-- The slab of an allocated object is still there after a step. -/
theorem Owned.alive (h : Owned s) {a : Act n} (hs : Happens client s a t) {o : ℕ}
    (ho : o ∈ s.cache.allocated) : pageAlign o ∈ t.cache.SlabList.map Slab.Address := by
  have ht := h.happened hs
  cases hs with
  | taken hidle hget => exact h.page_alive ho
  | missed hidle => exact h.page_alive ho
  | stored hidle hheld hput => exact h.page_alive ho
  | returning hidle hheld hput => exact h.page_alive ho
  | @got cpu alloc x cache c A hpending hlocked hsec hgot =>
    apply ht.page_alive
    show o ∈ cache.allocated
    rw [(hgot.some x rfl).2.1]
    exact .inr ho
  | @failed cpu alloc cache c A hpending hlocked hsec hsame =>
    apply ht.page_alive
    show o ∈ cache.allocated
    rwa [hsame.allocated]
  | @returned cpu x cache A hpending hlocked hsec hall htotal halive =>
    by_cases hx : o = x
    · subst hx
      exact halive
    · apply ht.page_alive
      show o ∈ cache.allocated
      rw [hall]
      exact ⟨ho, hx⟩
  | @same a cache c A hmaintains hsec hsame =>
    apply ht.page_alive
    show o ∈ cache.allocated
    rwa [hsame.allocated]

theorem Owned.careful (h : Owned s) {a : Act n} (hs : Happens client s a t) : Careful s t where
  delivered x hx := by
    have hne : s.held ≠ x :: s.held := (List.cons_ne_self x s.held).symm
    have herase : ∀ y, s.held.erase y ≠ x :: s.held := fun y heq => by
      have := (List.length_erase_le (a := y) (l := s.held))
      rw [heq, List.length_cons] at this
      omega
    cases hs with
    | taken hidle hget =>
      obtain ⟨rfl, -⟩ := List.cons.inj hx
      exact h.clients_eq_zero hget
    | @got cpu alloc y cache c A hpending hlocked hsec hgot =>
      obtain ⟨rfl, -⟩ := List.cons.inj hx
      have := h.balance.unused y (hgot.some y rfl).1
      have := clients_nonneg s.held s.pending y
      have := inMagazines_nonneg (M := s.cache.Magazine) (o := y)
      omega
    | missed => exact absurd hx hne
    | failed => exact absurd hx hne
    | stored => exact absurd hx (herase _)
    | returning => exact absurd hx (herase _)
    | returned => exact absurd hx hne
    | same => exact absurd hx hne
  destroyed slab hslab hgone i hi := by
    have hfree : slab.object s.cache.Size i ∉ s.cache.allocated := fun hmem => by
      have := h.alive hs hmem
      rw [h.size.pageAlign_object (h.ordered.slabs.aligned slab hslab) hi] at this
      exact hgone this
    have := h.balance.unused _ hfree
    have := clients_nonneg s.held s.pending (slab.object s.cache.Size i)
    have := inMagazines_nonneg (M := s.cache.Magazine) (o := slab.object s.cache.Size i)
    omega

/-- **No object is handed out twice, and none is lost.** -/
theorem accounted_of_reaches (c : σ) {Size Reservation Cap : ℕ} (hsize : SoundSize (p2RoundUp Size 8))
    (h : Reaches (step client) Counting (init n Size Reservation Cap c) s) :
    Accounted s ∧ ∀ a t, Counting s a → step client s a = some t → Careful s t := by
  have hinv : Owned s ∧ s.cache.CurrentObjects = clientTotal s.held s.pending := by
    refine h.invariant (P := fun s : State n σ =>
      Owned s ∧ s.cache.CurrentObjects = clientTotal s.held s.pending) ⟨owned_init c hsize, ?_⟩ ?_
    · simp [init, newCache, clientTotal, Pending.size]
    · rintro s a t ⟨ho, hcurrent⟩ ⟨hmanaged, hlt⟩ hs
      have hhappens := ho.happens hmanaged hs
      exact ⟨ho.happened hhappens, current_step hcurrent hlt hhappens⟩
  exact ⟨hinv.1.accounted hinv.2, fun a t ha hs => hinv.1.careful (hinv.1.happens ha.1 hs)⟩

/-! ## Runs -/

/-- Two CPUs: an object goes from the first through the magazine of the second to the second. -/
theorem accounted_of_reaches_two : ∃ s : State 2 Unit,
    guardedRun (step plainClient) Counting (init 2 16 0 0 ())
      [.get 0, .getLocked 0 (page 4096), .put 1 4144, .get 1, .spill 0] = some s ∧
    s.held = [4144] ∧ Accounted s ∧
      ∀ a t, Counting s a → step plainClient s a = some t → Careful s t := by
  obtain ⟨s, hs, hheld⟩ := (Option.any_eq_true (fun s : State 2 Unit => s.held == [4144])
    (guardedRun (step plainClient) Counting (init 2 16 0 0 ())
      [.get 0, .getLocked 0 (page 4096), .put 1 4144, .get 1, .spill 0])).mp (by decide +kernel)
  exact ⟨s, hs, eq_of_beq hheld, accounted_of_reaches () (by decide +kernel) (reaches_of_guardedRun hs)⟩

/-- The second object of a slab begins on the second page: when the magazine is full, `CachePut` takes
that page for the slab. -/
theorem not_accounted_of_two_pages : ∃ s : State 1 Unit,
    guardedRun (step plainClient) Counting (init 1 4056 0 0 ()) twoPageRun = some s ∧
      ¬ Accounted s := by
  obtain ⟨s, hs, hfault⟩ := (Option.any_eq_true (fun s : State 1 Unit => s.fault)
    (guardedRun (step plainClient) Counting (init 1 4056 0 0 ()) twoPageRun)).mp (by decide +kernel)
  refine ⟨s, hs, fun h => ?_⟩
  rw [h.noFault] at hfault
  exact Bool.false_ne_true hfault

end XenBus.ObjectCache
